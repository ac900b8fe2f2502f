import LibSignal.Address.ProtocolAddress
import LibSignal.Groups.State
import LibSignal.Lib.StateExcept

/-!
# Group messages on a store

Model of `groups/builder.go` and `groups/cipher.go`: announcing a chain, processing an announcement,
encrypting and decrypting, over a store of serialized records (`stores.SenderKeyStore`).
-/

namespace LibSignal.Groups
open Chunked (Bytes)
open Crypto Curve Proto Protocol Lib Address

structure SenderKeyID where
  sender : ProtocolAddress
  distributionID : DistributionID
deriving DecidableEq, Repr

abbrev SenderKeyStore := SenderKeyID → Option Bytes

structure Faults where
  load : Bool
  store : Bool
deriving DecidableEq, Repr

abbrev GroupOp := Op SenderKeyStore GroupErr

section
variable [Wire SenderKeyRecord]

def loadSenderKeyRecord (f : Faults) (id : SenderKeyID) : GroupOp (Option SenderKeyRecord) :=
  if f.load then Op.fail .loading
  else do
    let store ← Op.get
    match store id with
    | none => return none
    | some raw => do
      let record ← Op.ofOption .decoding (unmarshal raw)
      return some record

def storeSenderKeyRecord (f : Faults) (id : SenderKeyID) (record : SenderKeyRecord) : GroupOp Unit :=
  if f.store then Op.fail .storing
  else do
    let store ← Op.get
    Op.put (Function.update store id (some (marshal record)))

def randomChainID (rng : Reader) : Option UInt32 := (rng.read 4).map fun buf => (ofBe buf).toUInt32 >>> 1

def provisionSenderKeyChain [X25519] (f : Faults) (id : SenderKeyID) (rng : Readers) :
    GroupOp SenderKeyRecord := do
  let chainID ← Op.ofOption .readingChainID (randomChainID (rng 0))
  let chainKey ← Op.ofOption .readingChainKey ((rng 1).read chainKeyLen)
  let signingKey ← Op.lift ((generateKeyPair (rng 2)).mapError .generatingSigningKey)
  let record := SenderKeyRecord.newSenderKeyRecord.addSenderKeyState senderKeyMessageVersion chainID 0
    chainKey signingKey.publicKey (some signingKey.privateKey)
  storeSenderKeyRecord f id record
  return record

def recordOrProvision [X25519] (f : Faults) (id : SenderKeyID) (rng : Readers) :
    Option SenderKeyRecord → GroupOp SenderKeyRecord
  | some record => pure record
  | none => provisionSenderKeyChain f id rng

def createSenderKeyDistributionMessage [X25519] [Wire SenderKeyDistributionMessagePB] (f : Faults)
    (sender : ProtocolAddress) (distributionID : DistributionID) (rng : Readers) :
    GroupOp SenderKeyDistributionMessage := do
  let id : SenderKeyID := ⟨sender, distributionID⟩
  let loaded ← loadSenderKeyRecord f id
  let record ← recordOrProvision f id rng loaded
  let state ← Op.ofOption (.invalidSession .emptyState) record.senderKeyState
  let chainKey ← Op.ofOption (.invalidSession .missingChainKey) state.senderChainKey
  let signingKey ← Op.ofOption (.invalidSession .missingSigningKey) state.signingKeyPublic
  return newSenderKeyDistributionMessage distributionID state.chainID chainKey.iteration
    (copyBytes chainKey.chainKey) signingKey

def processSenderKeyDistributionMessage (f : Faults) (sender : ProtocolAddress)
    (skdm : SenderKeyDistributionMessage) : GroupOp Unit := do
  let id : SenderKeyID := ⟨sender, skdm.distributionID⟩
  let loaded ← loadSenderKeyRecord f id
  let record := loaded.getD .newSenderKeyRecord
  storeSenderKeyRecord f id (record.addSenderKeyState skdm.messageVersion skdm.chainID skdm.iteration
    skdm.chainKey skdm.signingKey none)

variable [Hash] [Aes] [XEdDSA] [Wire SenderKeyMessagePB]

def encrypt (f : Faults) (sender : ProtocolAddress) (distributionID : DistributionID) (plaintext : Bytes)
    (rng : Reader) : GroupOp SenderKeyMessage := do
  let id : SenderKeyID := ⟨sender, distributionID⟩
  let loaded ← loadSenderKeyRecord f id
  let record ← Op.ofOption .noSenderKeyState loaded
  let state ← Op.ofOption (.invalidSenderKeySession .emptyState) record.senderKeyState
  let chainKey ← Op.ofOption (.invalidSenderKeySession .missingChainKey) state.senderChainKey
  let signingKey ← Op.ofOption (.invalidSenderKeySession .missingPrivateSigningKey) state.signingKeyPrivate
  let messageKey := chainKey.senderMessageKey
  let ciphertext ← Op.lift ((encryptCBC plaintext messageKey.cipherKey messageKey.iv).mapError fun e =>
    .invalidSenderKeySession (.cipher e))
  let skm ← Op.lift ((newSenderKeyMessage distributionID state.chainID messageKey.iteration
    (some ciphertext) rng signingKey).mapError .building)
  let nextChainKey ← Op.lift chainKey.next
  storeSenderKeyRecord f id (record.setHead (state.setSenderChainKey nextChainKey))
  return skm

omit [Wire SenderKeyRecord] [Hash] [Aes] [XEdDSA] [Wire SenderKeyMessagePB] in
/-- The error of a failed decryption: a bad key or IV is a corrupt state, anything else a bad message. -/
def decryptionError : CryptoErr → GroupErr
  | .badCiphertextLength => .decryptionFailed .badCiphertextLength
  | .badPadding => .decryptionFailed .badPadding
  | e => .invalidSenderKeySession (.cipher e)

def decrypt (f : Faults) (sender : ProtocolAddress) (skmBytes : Bytes) : GroupOp Bytes := do
  let skm ← Op.lift ((deserializeSenderKeyMessage skmBytes).mapError .parse)
  let id : SenderKeyID := ⟨sender, skm.distributionID⟩
  let loaded ← loadSenderKeyRecord f id
  let record ← Op.ofOption .noSenderKeyState loaded
  let state ← Op.ofOption (.unknownChainID skm.chainID) (record.senderKeyStateForChainID skm.chainID)
  if skm.messageVersion.toUInt32 ≠ state.messageVersion then
    Op.fail (.unrecognizedMessageVersion skm.messageVersion.toUInt32 state.messageVersion)
  else do
    let signingKey ← Op.ofOption (.invalidSenderKeySession .missingSigningKey) state.signingKeyPublic
    if ¬ skm.verifySignature signingKey then Op.fail .signatureInvalid
    else do
      let (messageKey, state) ← Op.lift (senderKeyForIteration state skm.iteration)
      let plaintext ← Op.lift ((decryptCBC skm.ciphertext messageKey.cipherKey messageKey.iv).mapError
        decryptionError)
      storeSenderKeyRecord f id (record.setForChainID skm.chainID state)
      return plaintext

/-! ## What the calls do -/

omit [Hash] [Aes] [XEdDSA] [Wire SenderKeyMessagePB] in
def storedRecord (store : SenderKeyStore) (id : SenderKeyID) : Option SenderKeyRecord :=
  (store id).bind unmarshal

def withRecord (store : SenderKeyStore) (id : SenderKeyID) (record : SenderKeyRecord) : SenderKeyStore :=
  Function.update store id (some (marshal record))

omit [Hash] [Aes] [XEdDSA] [Wire SenderKeyMessagePB] in
@[simp] lemma storedRecord_withRecord (store : SenderKeyStore) (id : SenderKeyID)
    (record : SenderKeyRecord) : storedRecord (withRecord store id record) id = some record := by
  rw [storedRecord, withRecord, Function.update_self, Option.bind_some, unmarshal_marshal]

omit [Hash] [Aes] [XEdDSA] [Wire SenderKeyMessagePB] in
lemma storedRecord_withRecord_ne {store : SenderKeyStore} {id id' : SenderKeyID}
    {record : SenderKeyRecord} (h : id' ≠ id) :
    storedRecord (withRecord store id record) id' = storedRecord store id' := by
  rw [storedRecord, withRecord, Function.update_of_ne h, storedRecord]

variable {f : Faults} {id : SenderKeyID} {sender : ProtocolAddress} {distributionID : DistributionID}
  {store store' : SenderKeyStore} {record : SenderKeyRecord}

section
omit [Hash] [Aes] [XEdDSA] [Wire SenderKeyMessagePB]

lemma reads_loadSenderKeyRecord (f : Faults) (id : SenderKeyID) : Op.Reads (loadSenderKeyRecord f id) := by
  intro s
  rw [loadSenderKeyRecord]
  split
  · rfl
  · rw [Op.get_bind]
    cases s id with
    | none => rfl
    | some raw => exact ((Op.reads_ofOption _ _).bind fun _ => Op.reads_pure _) s

lemma loadSenderKeyRecord_ok {loaded : Option SenderKeyRecord}
    (h : loadSenderKeyRecord f id store = (.ok loaded, store')) : (loaded = none → store id = none) ∧
      ∀ record, loaded = some record → storedRecord store id = some record := by
  rw [loadSenderKeyRecord] at h
  split at h
  · cases h
  · rw [Op.get_bind] at h
    cases hraw : store id with
    | none =>
      rw [hraw] at h
      cases h
      exact ⟨fun _ => rfl, fun _ h => by cases h⟩
    | some raw =>
      rw [hraw] at h
      obtain ⟨r, hr, h⟩ := Op.ofOption_bind_ok h
      cases h
      refine ⟨fun h => (by cases h), fun record h => ?_⟩
      cases h
      rw [storedRecord, hraw, Option.bind_some]
      exact hr

lemma loadSenderKeyRecord_bind_ok {β : Type} {g : Option SenderKeyRecord → GroupOp β} {b : β}
    (h : (loadSenderKeyRecord f id >>= g) store = (.ok b, store')) :
    ∃ loaded, ((loaded = none → store id = none) ∧
      ∀ record, loaded = some record → storedRecord store id = some record) ∧
      g loaded store = (.ok b, store') := by
  obtain ⟨loaded, s1, hload, h⟩ := Op.bind_ok h
  refine ⟨loaded, loadSenderKeyRecord_ok hload, ?_⟩
  rwa [(reads_loadSenderKeyRecord f id).run hload] at h

lemma loadSenderKeyRecord_some (hf : f.load = false) (h : storedRecord store id = some record) :
    loadSenderKeyRecord f id store = (.ok (some record), store) := by
  obtain ⟨raw, hraw, hr⟩ := Option.bind_eq_some_iff.mp h
  rw [loadSenderKeyRecord, if_neg (by rw [hf]; exact Bool.false_ne_true), Op.get_bind, hraw]
  change (Op.ofOption GroupErr.decoding (unmarshal raw) >>= _) store = _
  rw [hr]
  rfl

lemma storeSenderKeyRecord_ok {u : Unit} (h : storeSenderKeyRecord f id record store = (.ok u, store')) :
    store' = withRecord store id record := by
  rw [storeSenderKeyRecord] at h
  split at h
  · cases h
  · rw [Op.get_bind] at h
    cases h
    rfl

lemma storeSenderKeyRecord_run (hf : f.store = false) :
    storeSenderKeyRecord f id record store = (.ok (), withRecord store id record) := by
  rw [storeSenderKeyRecord, if_neg (by rw [hf]; exact Bool.false_ne_true)]
  rfl

lemma atomic_storeSenderKeyRecord (f : Faults) (id : SenderKeyID) (record : SenderKeyRecord) :
    Op.Atomic (storeSenderKeyRecord f id record) := by
  rw [storeSenderKeyRecord]
  split
  · exact (Op.reads_fail _).atomic
  · exact Op.reads_get.bind_atomic fun _ => Op.atomic_put _

lemma processSenderKeyDistributionMessage_ok {skdm : SenderKeyDistributionMessage} {u : Unit}
    (hrun : processSenderKeyDistributionMessage f sender skdm store = (.ok u, store')) :
    ∃ record : SenderKeyRecord, (storedRecord store ⟨sender, skdm.distributionID⟩ = some record ∨
        store ⟨sender, skdm.distributionID⟩ = none ∧ record = .newSenderKeyRecord) ∧
      store' = withRecord store ⟨sender, skdm.distributionID⟩ (record.addSenderKeyState
        skdm.messageVersion skdm.chainID skdm.iteration skdm.chainKey skdm.signingKey none) := by
  obtain ⟨loaded, ⟨hnone, hsome⟩, h⟩ := loadSenderKeyRecord_bind_ok hrun
  refine ⟨loaded.getD .newSenderKeyRecord, ?_, storeSenderKeyRecord_ok h⟩
  cases loaded with
  | none => exact .inr ⟨hnone rfl, rfl⟩
  | some record => exact .inl (hsome record rfl)

lemma processSenderKeyDistributionMessage_atomic (f : Faults) (sender : ProtocolAddress)
    (skdm : SenderKeyDistributionMessage) : Op.Atomic (processSenderKeyDistributionMessage f sender skdm) :=
  (reads_loadSenderKeyRecord _ _).bind_atomic fun _ => atomic_storeSenderKeyRecord _ _ _

lemma create_ok [X25519] [Wire SenderKeyDistributionMessagePB] {rng : Readers}
    {skdm : SenderKeyDistributionMessage}
    (hrun : createSenderKeyDistributionMessage f sender distributionID rng store = (.ok skdm, store')) :
    ∃ (record : SenderKeyRecord) (state : SenderKeyState) (chainKey : SenderChainKey) (pub : PublicKey),
      record.senderKeyState = some state ∧ state.senderChainKey = some chainKey ∧
      state.signingKeyPublic = some pub ∧
      skdm = newSenderKeyDistributionMessage distributionID state.chainID chainKey.iteration
        (copyBytes chainKey.chainKey) pub ∧
      (store' = store ∧ storedRecord store ⟨sender, distributionID⟩ = some record ∨
        store ⟨sender, distributionID⟩ = none ∧ store' = withRecord store ⟨sender, distributionID⟩ record ∧
        ∃ (chainID : UInt32) (seed : Bytes) (signingKey : KeyPair), seed.length = chainKeyLen ∧ signingKey.Valid ∧
          record = ⟨[newSenderKeyState senderKeyMessageVersion chainID 0 seed signingKey.publicKey
            (some signingKey.privateKey)]⟩) := by
  obtain ⟨loaded, ⟨hnone, hsome⟩, h⟩ := loadSenderKeyRecord_bind_ok hrun
  obtain ⟨record, s2, hrecord, h⟩ := Op.bind_ok h
  obtain ⟨state, hstate, h⟩ := Op.ofOption_bind_ok h
  obtain ⟨chainKey, hchain, h⟩ := Op.ofOption_bind_ok h
  obtain ⟨pub, hpub, h⟩ := Op.ofOption_bind_ok h
  cases h
  refine ⟨record, state, chainKey, pub, hstate, hchain, hpub, rfl, ?_⟩
  cases loaded with
  | some r =>
    cases hrecord
    exact .inl ⟨rfl, hsome _ rfl⟩
  | none =>
    obtain ⟨chainID, hid, hrecord⟩ := Op.ofOption_bind_ok hrecord
    obtain ⟨seed, hseed, hrecord⟩ := Op.ofOption_bind_ok hrecord
    obtain ⟨signingKey, hkey, hrecord⟩ := Op.lift_bind_ok hrecord
    obtain ⟨_, s6, hstore, hrecord⟩ := Op.bind_ok hrecord
    cases hrecord
    exact .inr ⟨hnone rfl, storeSenderKeyRecord_ok hstore, chainID, seed, signingKey,
      (rng 1).read_length _ _ hseed, generateKeyPair_valid (mapError_eq_ok hkey), rfl⟩

lemma atomic_provisionSenderKeyChain [X25519] (f : Faults) (id : SenderKeyID) (rng : Readers) :
    Op.Atomic (provisionSenderKeyChain f id rng) := by
  refine (Op.reads_ofOption _ _).bind_atomic fun chainID => ?_
  refine (Op.reads_ofOption _ _).bind_atomic fun chainKey => ?_
  refine (Op.reads_lift _).bind_atomic fun signingKey => ?_
  exact (atomic_storeSenderKeyRecord _ _ _).bind_pure fun _ => _

lemma create_atomic [X25519] [Wire SenderKeyDistributionMessagePB] (f : Faults) (sender : ProtocolAddress)
    (distributionID : DistributionID) (rng : Readers) :
    Op.Atomic (createSenderKeyDistributionMessage f sender distributionID rng) := by
  refine (reads_loadSenderKeyRecord _ _).bind_atomic fun loaded => ?_
  cases loaded with
  | some record =>
    refine (Op.reads_pure record).bind_atomic fun record => ?_
    refine (Op.reads_ofOption _ _).bind_atomic fun state => ?_
    refine (Op.reads_ofOption _ _).bind_atomic fun chainKey => ?_
    refine (Op.reads_ofOption _ _).bind_atomic fun signingKey => ?_
    exact (Op.reads_pure _).atomic
  | none =>
    intro s e s' h
    rcases Op.bind_error h with h | ⟨record, s1, hrecord, h⟩
    · exact atomic_provisionSenderKeyChain f _ rng s e s' h
    · obtain ⟨chainID, _, hrecord⟩ := Op.ofOption_bind_ok hrecord
      obtain ⟨seed, _, hrecord⟩ := Op.ofOption_bind_ok hrecord
      obtain ⟨key, _, hrecord⟩ := Op.lift_bind_ok hrecord
      obtain ⟨_, s2, _, hrecord⟩ := Op.bind_ok hrecord
      cases hrecord
      change (Op.ofOption _ (newSenderKeyState senderKeyMessageVersion chainID 0 seed key.publicKey
        (some key.privateKey)).signingKeyPublic >>= _) s1 = _ at h
      rw [(SenderKeyRecord.isFor_iff.mp SenderKeyRecord.newSenderKeyState_for).2] at h
      cases h

end

lemma encrypt_ok {plaintext : Bytes} {rng : Reader} {skm : SenderKeyMessage}
    (hrun : encrypt f sender distributionID plaintext rng store = (.ok skm, store')) :
    ∃ (state : SenderKeyState) (rest : List SenderKeyState) (chainKey next : SenderChainKey)
      (signingKey : PrivateKey) (ciphertext : Bytes),
      storedRecord store ⟨sender, distributionID⟩ = some ⟨state :: rest⟩ ∧
      state.senderChainKey = some chainKey ∧ state.signingKeyPrivate = some signingKey ∧
      encryptCBC plaintext chainKey.senderMessageKey.cipherKey chainKey.senderMessageKey.iv = .ok ciphertext ∧
      newSenderKeyMessage distributionID state.chainID chainKey.iteration (some ciphertext) rng signingKey
        = .ok skm ∧ chainKey.next = .ok next ∧
      store' = withRecord store ⟨sender, distributionID⟩ ⟨state.setSenderChainKey next :: rest⟩ := by
  obtain ⟨loaded, ⟨_, hsome⟩, h⟩ := loadSenderKeyRecord_bind_ok hrun
  obtain ⟨record, hrecord, h⟩ := Op.ofOption_bind_ok h
  obtain ⟨state, hstate, h⟩ := Op.ofOption_bind_ok h
  obtain ⟨chainKey, hchain, h⟩ := Op.ofOption_bind_ok h
  obtain ⟨signingKey, hkey, h⟩ := Op.ofOption_bind_ok h
  obtain ⟨ciphertext, hct, h⟩ := Op.lift_bind_ok h
  obtain ⟨m, hm, h⟩ := Op.lift_bind_ok h
  obtain ⟨next, hnext, h⟩ := Op.lift_bind_ok h
  obtain ⟨_, s9, hstore, h⟩ := Op.bind_ok h
  cases h
  obtain ⟨rest, hrest⟩ := List.head?_eq_some_iff.mp hstate
  have hr : record = ⟨state :: rest⟩ := congrArg SenderKeyRecord.mk hrest
  refine ⟨state, rest, chainKey, next, signingKey, ciphertext, ?_, hchain, hkey, mapError_eq_ok hct,
    mapError_eq_ok hm, hnext, ?_⟩
  · rw [hsome record hrecord, hr]
  · rw [storeSenderKeyRecord_ok hstore, hr]
    rfl

lemma encrypt_eq (plaintext : Bytes) (rng : Reader) {state : SenderKeyState} {rest : List SenderKeyState}
    {chainKey : SenderChainKey} {signingKey : PrivateKey} (hf : f.load = false)
    (hrecord : storedRecord store ⟨sender, distributionID⟩ = some ⟨state :: rest⟩)
    (hchain : state.senderChainKey = some chainKey) (hkey : state.signingKeyPrivate = some signingKey) :
    ∃ ciphertext, encryptCBC plaintext chainKey.senderMessageKey.cipherKey chainKey.senderMessageKey.iv
        = .ok ciphertext ∧ encrypt f sender distributionID plaintext rng store =
        (Op.lift ((newSenderKeyMessage distributionID state.chainID chainKey.iteration (some ciphertext) rng
            signingKey).mapError .building) >>= fun skm =>
          Op.lift chainKey.next >>= fun next => storeSenderKeyRecord f ⟨sender, distributionID⟩
            ⟨state.setSenderChainKey next :: rest⟩ >>= fun _ => pure skm) store := by
  obtain ⟨hcipher, hiv⟩ := length_newSenderMessageKey chainKey.iteration (chainKey.derivative messageKeySeed)
  obtain ⟨ciphertext, hct⟩ := encryptCBC_ok plaintext hcipher hiv
  refine ⟨ciphertext, hct, ?_⟩
  rw [encrypt]
  dsimp only
  rw [Op.bind_run_ok (loadSenderKeyRecord_some hf hrecord)]
  change (Op.ofOption (GroupErr.invalidSenderKeySession .missingChainKey) state.senderChainKey >>= _) store = _
  rw [hchain]
  change (Op.ofOption (GroupErr.invalidSenderKeySession .missingPrivateSigningKey) state.signingKeyPrivate
    >>= _) store = _
  rw [hkey]
  change (Op.lift ((encryptCBC plaintext chainKey.senderMessageKey.cipherKey
    chainKey.senderMessageKey.iv).mapError _) >>= _) store = _
  rw [SenderChainKey.senderMessageKey, hct]
  rfl

lemma decrypt_ok {skmBytes plaintext : Bytes}
    (hrun : decrypt f sender skmBytes store = (.ok plaintext, store')) :
    ∃ (skm : SenderKeyMessage) (record : SenderKeyRecord) (state next : SenderKeyState)
      (signingKey : PublicKey) (messageKey : SenderMessageKey), deserializeSenderKeyMessage skmBytes = .ok skm ∧
      storedRecord store ⟨sender, skm.distributionID⟩ = some record ∧
      record.senderKeyStateForChainID skm.chainID = some state ∧
      state.signingKeyPublic = some signingKey ∧ skm.verifySignature signingKey = true ∧
      senderKeyForIteration state skm.iteration = .ok (messageKey, next) ∧
      decryptCBC skm.ciphertext messageKey.cipherKey messageKey.iv = .ok plaintext ∧
      store' = withRecord store ⟨sender, skm.distributionID⟩ (record.setForChainID skm.chainID next) := by
  obtain ⟨skm, hskm, h⟩ := Op.lift_bind_ok hrun
  obtain ⟨loaded, ⟨_, hsome⟩, h⟩ := loadSenderKeyRecord_bind_ok h
  obtain ⟨record, hrecord, h⟩ := Op.ofOption_bind_ok h
  obtain ⟨state, hstate, h⟩ := Op.ofOption_bind_ok h
  split at h
  · cases h
  · obtain ⟨signingKey, hkey, h⟩ := Op.ofOption_bind_ok h
    split at h
    · cases h
    · rename_i hverify
      obtain ⟨⟨messageKey, next⟩, hmk, h⟩ := Op.lift_bind_ok h
      obtain ⟨pt, hpt, h⟩ := Op.lift_bind_ok h
      obtain ⟨_, s7, hstore, h⟩ := Op.bind_ok h
      cases h
      exact ⟨skm, record, state, next, signingKey, messageKey, mapError_eq_ok hskm, hsome record hrecord,
        hstate, hkey, not_not.mp hverify, hmk, mapError_eq_ok hpt, storeSenderKeyRecord_ok hstore⟩

lemma encrypt_atomic (f : Faults) (sender : ProtocolAddress) (distributionID : DistributionID)
    (plaintext : Bytes) (rng : Reader) : Op.Atomic (encrypt f sender distributionID plaintext rng) := by
  refine (reads_loadSenderKeyRecord _ _).bind_atomic fun loaded => ?_
  refine (Op.reads_ofOption _ _).bind_atomic fun record => ?_
  refine (Op.reads_ofOption _ _).bind_atomic fun state => ?_
  refine (Op.reads_ofOption _ _).bind_atomic fun chainKey => ?_
  refine (Op.reads_ofOption _ _).bind_atomic fun signingKey => ?_
  refine (Op.reads_lift _).bind_atomic fun ciphertext => ?_
  refine (Op.reads_lift _).bind_atomic fun skm => ?_
  refine (Op.reads_lift _).bind_atomic fun next => ?_
  exact (atomic_storeSenderKeyRecord _ _ _).bind_pure fun _ => skm

lemma decrypt_atomic (f : Faults) (sender : ProtocolAddress) (skmBytes : Bytes) :
    Op.Atomic (decrypt f sender skmBytes) := by
  refine (Op.reads_lift _).bind_atomic fun skm => ?_
  refine (reads_loadSenderKeyRecord _ _).bind_atomic fun loaded => ?_
  refine (Op.reads_ofOption _ _).bind_atomic fun record => ?_
  refine (Op.reads_ofOption _ _).bind_atomic fun state => ?_
  split
  · exact (Op.reads_fail _).atomic
  · refine (Op.reads_ofOption _ _).bind_atomic fun signingKey => ?_
    split
    · exact (Op.reads_fail _).atomic
    · refine (Op.reads_lift _).bind_atomic fun ⟨messageKey, next⟩ => ?_
      refine (Op.reads_lift _).bind_atomic fun plaintext => ?_
      exact (atomic_storeSenderKeyRecord _ _ _).bind_pure fun _ => plaintext

end

end LibSignal.Groups
