import LibSignal.Address.ProtocolAddress
import LibSignal.Lib.StateExcept
import LibSignal.Session.Builder
import LibSignal.Session.Cipher
import LibSignal.Session.Record

/-!
# The calls of the session package

Model of the exported calls: `ProcessPreKeyBundle` of `session/builder.go`, `Encrypt` and `Decrypt` of
`session/cipher.go`, and `DecryptPreKey` of `session/prekey_decrypt.go`.
-/

namespace LibSignal.Session
open Address (ProtocolAddress)
open Chunked (Bytes)
open Crypto Curve Lib Proto Protocol Ratchet
open Spqr (StateCodec)

inductive Direction where
  | sending
  | receiving
deriving DecidableEq, Repr

inductive IdentityChange where
  | newOrUnchanged
  | replacedExisting
deriving DecidableEq, Repr

structure PreKeyRecordStructure where
  id : UInt32
  publicKey : Bytes
  privateKey : Bytes
deriving DecidableEq, Repr

structure SignedPreKeyRecordStructure where
  id : UInt32
  publicKey : Bytes
  privateKey : Bytes
  signature : Bytes
  timestamp : UInt64
deriving DecidableEq, Repr

structure Host (σ : Type) where
  loadSession : ProtocolAddress → Op σ Unit (Option SessionRecord)
  storeSession : ProtocolAddress → SessionRecord → Op σ Unit Unit
  touch : ProtocolAddress → SessionRecord → σ → σ
  isTrustedIdentity : ProtocolAddress → PublicKey → Direction → Op σ Unit Bool
  saveIdentity : ProtocolAddress → PublicKey → Op σ Unit IdentityChange
  getIdentityKeyPair : Op σ Unit KeyPair
  getLocalRegistrationID : Op σ Unit UInt32
  getPreKey : UInt32 → Op σ Unit Bytes
  removePreKey : UInt32 → Op σ Unit Unit
  getSignedPreKey : UInt32 → Op σ Unit Bytes
  getKyberPreKey : UInt32 → Op σ Unit Bytes
  markKyberPreKeyUsed : UInt32 → UInt32 → PublicKey → Op σ Unit Unit

def maxUnacknowledgedSessionAge : Int := 30 * 24 * 3600

def isStaleUnacked (unixSeconds : UInt64) (now : Int) : Bool :=
  (unixSeconds.toInt64.toInt + maxUnacknowledgedSessionAge) * 1000000000 < now

def storeCall {σ α : Type} (c : StoreCall) (x : Op σ Unit α) : Op σ SessionErr α := x.mapErr fun _ => .store c

variable {σ : Type}

/-! ## Sending -/

/-- The error of `Encrypt` for a session without a sending chain. -/
def senderChainErr : SessionErr → SessionErr
  | .chainKey cause => .sessionNotFound (.senderChain (some cause))
  | _ => .sessionNotFound (.senderChain none)

def sendingKeys (state : SessionState) : Except SessionErr (PublicKey × PublicKey × ChainKey) := do
  let senderID ← (deserializePublicKey state.localIdentityPublic).mapError .localIdentity
  let receiverID ← (deserializePublicKey state.remoteIdentityPublic).mapError .remoteIdentity
  let chainKey ← state.senderChainKey.mapError senderChainErr
  return (senderID, receiverID, chainKey)

lemma sendingKeys_inv {s : SessionState} {senderID receiverID : PublicKey} {ck : ChainKey}
    (h : sendingKeys s = .ok (senderID, receiverID, ck)) :
    deserializePublicKey s.localIdentityPublic = .ok senderID ∧
      deserializePublicKey s.remoteIdentityPublic = .ok receiverID ∧ s.senderChainKey = .ok ck := by
  obtain ⟨_, hsender, h⟩ := bind_eq_ok h
  obtain ⟨_, hreceiver, h⟩ := bind_eq_ok h
  obtain ⟨_, hck, h⟩ := bind_eq_ok h
  cases h
  exact ⟨mapError_eq_ok hsender, mapError_eq_ok hreceiver, mapError_eq_ok hck⟩

section
variable [Hash] [Aes] [Wire SignalMessagePB] [Wire PreKeySignalMessagePB]

def wrapPreKey (state : SessionState) (senderID : PublicKey) (signal : SignalMessage) (now : Int) :
    Except SessionErr (Option SignalMessage × Option PreKeySignalMessage) :=
  match state.pendingPreKeyMessage with
  | none => .ok (some signal, none)
  | some pending =>
    if isStaleUnacked pending.unixSeconds now then .error (.sessionNotFound .staleUnacknowledged)
    else do
      let base ← (deserializePublicKey pending.baseKey).mapError .pendingBaseKey
      return (none, some (newPreKeySignalMessage state.sessionVersion.toUInt8 state.localRegistrationId
        pending.preKeyID pending.signedPreKeyID pending.kyberPreKeyID pending.kyberCiphertext base senderID signal))

def buildMessage (state : SessionState) (senderID receiverID : PublicKey) (chainKey : ChainKey)
    (pqrMsg pqrKey plaintext : Bytes) (now : Int) :
    Except SessionErr (Option SignalMessage × Option PreKeySignalMessage) := do
  let mk ← (chainKey.messageKeys.generateKeys pqrKey).mapError .messageKeys
  let ratchetKey ← state.senderRatchetKey
  let ctext ← (encryptCBC plaintext mk.cipherKey mk.iv).mapError .encryption
  let signal ← (newSignalMessage state.sessionVersion.toUInt8 mk.macKey ratchetKey chainKey.index
    state.previousCounter ctext senderID receiverID pqrMsg []).mapError .buildingSignalMessage
  wrapPreKey state senderID signal now

lemma buildMessage_inv {s : SessionState} {senderID receiverID : PublicKey} {ck : ChainKey}
    {pqrMsg pqrKey plaintext : Bytes} {now : Int} {out : Option SignalMessage × Option PreKeySignalMessage}
    (h : buildMessage s senderID receiverID ck pqrMsg pqrKey plaintext now = .ok out) :
    ∃ mk ratchetKey ctext signal, ck.messageKeys.generateKeys pqrKey = .ok mk ∧
      s.senderRatchetKey = .ok ratchetKey ∧ encryptCBC plaintext mk.cipherKey mk.iv = .ok ctext ∧
      newSignalMessage s.sessionVersion.toUInt8 mk.macKey ratchetKey ck.index s.previousCounter ctext senderID
        receiverID pqrMsg [] = .ok signal ∧ wrapPreKey s senderID signal now = .ok out := by
  obtain ⟨mk, hmk, h⟩ := bind_eq_ok h
  obtain ⟨ratchetKey, hratchet, h⟩ := bind_eq_ok h
  obtain ⟨ctext, hctext, h⟩ := bind_eq_ok h
  obtain ⟨signal, hsignal, h⟩ := bind_eq_ok h
  exact ⟨mk, ratchetKey, ctext, signal, mapError_eq_ok hmk, hratchet, mapError_eq_ok hctext,
    mapError_eq_ok hsignal, h⟩

variable [IncrementalKem] [StateCodec]

def encryptWith (host : Host σ) (plaintext : Bytes) (remote : ProtocolAddress) (now : Int) (rng : Reader)
    (record : SessionRecord) (state : SessionState) :
    Op σ SessionErr (Option SignalMessage × Option PreKeySignalMessage) := do
  let (senderID, receiverID, chainKey) ← .lift (sendingKeys state)
  let ((pqrMsg, pqrKey), state) ← .lift (state.pqRatchetSend rng)
  .modify (host.touch remote { record with current := some state })
  let out ← .lift (buildMessage state senderID receiverID chainKey pqrMsg pqrKey plaintext now)
  let trusted ← storeCall .trustCheck (host.isTrustedIdentity remote receiverID .sending)
  if trusted = false then .fail .untrustedIdentity
  else do
    let _ ← storeCall .saveIdentity (host.saveIdentity remote receiverID)
    let state ← .lift (state.setSenderChainKey chainKey.next)
    .modify (host.touch remote { record with current := some state })
    storeCall .storeSession (host.storeSession remote { record with current := some state })
    return out

def encrypt (host : Host σ) (plaintext : Bytes) (remote : ProtocolAddress) (now : Int) (rng : Reader) :
    Op σ SessionErr (Option SignalMessage × Option PreKeySignalMessage) := do
  match ← storeCall .loadSession (host.loadSession remote) with
  | none => .fail (.sessionNotFound .noRecord)
  | some record =>
    match record.current with
    | none => .fail (.sessionNotFound .noRecord)
    | some state => encryptWith host plaintext remote now rng record state

end

/-! ## Receiving -/

section
variable [Hash] [X25519] [IncrementalKem] [StateCodec] [Aes]

def decrypt (host : Host σ) (ciphertext : SignalMessage) (remote : ProtocolAddress) (rng : Reader) :
    Op σ SessionErr Bytes := do
  match ← storeCall .loadSession (host.loadSession remote) with
  | none => .fail (.sessionNotFound .noRecord)
  | some record =>
    match record.current with
    | none => .fail (.sessionNotFound .noRecord)
    | some state => do
      let (ptext, working) ← .lift (decryptWithState state ciphertext rng)
      .modify (host.touch remote { record with current := some working })
      storeCall .storeSession (host.storeSession remote { record with current := some working })
      return ptext

variable [Wire SessionState]

def matchesPreKey (message : PreKeySignalMessage) (state : SessionState) : Bool :=
  state.sessionVersion == message.messageVersion.toUInt32 && state.aliceBaseKey == message.baseKey.serialize

def findArchived (message : PreKeySignalMessage) : List Bytes → Nat → Except SessionErr (Option Nat)
  | [], _ => .ok none
  | raw :: rest, i =>
    match unmarshal (α := SessionState) raw with
    | none => .error (.invalidMessage .malformedArchive)
    | some state => if matchesPreKey message state then .ok (some i) else findArchived message rest (i + 1)

def promoteMatchingPreKeySession (record : SessionRecord) (message : PreKeySignalMessage) :
    Except SessionErr (Bool × SessionRecord) :=
  if record.current.any (matchesPreKey message) then .ok (true, record)
  else do
    match ← findArchived message record.previousSessions 0 with
    | some i => return (true, ← record.promoteOldSession i)
    | none => return (false, record)

def recipientCurveKeyPair (pub priv : Bytes) : Except SessionErr KeyPair := do
  let pub ← (deserializePublicKey pub).mapError fun _ => .invalidKey .unusablePreKeyPublic
  let priv ← (deserializePrivateKey priv).mapError fun _ => .invalidKey .unusablePreKeyPrivate
  return ⟨pub, priv⟩

def parseRecord {α : Type} [Wire α] (e : InvalidKey) (raw : Bytes) : Except SessionErr α :=
  match unmarshal raw with
  | none => .error (.invalidKey e)
  | some rec => .ok rec

variable [Wire PreKeyRecordStructure] [Wire SignedPreKeyRecordStructure] [EdwardsPoints] [Kem.Kyber1024]

def oneTimePreKey (host : Host σ) : Option UInt32 → Op σ SessionErr (Option KeyPair)
  | none => pure none
  | some id => do
    let raw ← storeCall .oneTimePreKey (host.getPreKey id)
    let pre : PreKeyRecordStructure ← .lift (parseRecord .malformedOneTimePreKey raw)
    let pair ← .lift (recipientCurveKeyPair pre.publicKey pre.privateKey)
    return some pair

def bobParamsOf (identity signedPair : KeyPair) (oneTime : Option KeyPair) (kyberPair : Kem.KeyPair)
    (message : PreKeySignalMessage) : BobParams :=
  { ourIdentity := identity, ourSignedPre := signedPair, ourOneTime := oneTime, ourKyber := kyberPair,
    theirIdentity := message.identityKey, theirBaseKey := message.baseKey,
    kyberCipher := message.kyberCiphertext }

def recipientPreKeyState (host : Host σ) (message : PreKeySignalMessage) : Op σ SessionErr SessionState :=
  if message.messageVersion ≠ signalMessageCurrentVersion then .fail (.invalidMessage .notPQXDH)
  else
    match message.kyberPreKeyID with
    | none => .fail .noKyberPreKey
    | some kyberID =>
      if message.kyberCiphertext.length = 0 then .fail .noKyberPreKey
      else do
        let signedRaw ← storeCall .signedPreKey (host.getSignedPreKey message.signedPreKeyID)
        let signed : SignedPreKeyRecordStructure ← .lift (parseRecord .malformedSignedPreKey signedRaw)
        let signedPair ← .lift (recipientCurveKeyPair signed.publicKey signed.privateKey)
        let kyberRaw ← storeCall .kyberPreKey (host.getKyberPreKey kyberID)
        let kyber : SignedPreKeyRecordStructure ← .lift (parseRecord .malformedKyberPreKey kyberRaw)
        let kyberPair ← .lift ((Kem.keyPairFromPublicAndSecret kyber.publicKey kyber.privateKey).mapError
          fun _ => .invalidKey .unusableKyberPreKey)
        let oneTime ← oneTimePreKey host message.preKeyID
        let identity ← storeCall .identityKeyPair host.getIdentityKeyPair
        let registration ← storeCall .localRegistrationID host.getLocalRegistrationID
        let state ← .lift (initializeBobSession (bobParamsOf identity signedPair oneTime kyberPair message))
        return { state with localRegistrationId := registration, remoteRegistrationId := message.registrationID }

def commitPreKey (host : Host σ) (ciphertext : PreKeySignalMessage) (remote : ProtocolAddress) (matched : Bool)
    (working : SessionRecord) : Op σ SessionErr Unit := do
  let _ ← storeCall .saveIdentity (host.saveIdentity remote ciphertext.identityKey)
  if matched = false then
    -- a new session was built, so the message has a Kyber pre-key id
    storeCall .markKyberPreKeyUsed (host.markKyberPreKeyUsed (ciphertext.kyberPreKeyID.getD 0)
      ciphertext.signedPreKeyID ciphertext.baseKey)
    match ciphertext.preKeyID with
    | some id => storeCall .removePreKey (host.removePreKey id)
    | none => pure ()
  storeCall .storeSession (host.storeSession remote working)

def preKeyRecord (host : Host σ) (ciphertext : PreKeySignalMessage) (stored : SessionRecord) :
    Op σ SessionErr (Bool × SessionRecord × SessionState) := do
  let (matched, working) ← .lift (promoteMatchingPreKeySession stored ciphertext)
  if matched then
    match working.current with
    | none => .fail (.invalidMessage .inconsistentIdentity)
    | some state =>
      match deserializePublicKey state.remoteIdentityPublic with
      | .error _ => .fail (.invalidMessage .inconsistentIdentity)
      | .ok identity =>
        if identity.equal ciphertext.identityKey then return (true, working, state)
        else .fail (.invalidMessage .inconsistentIdentity)
  else do
    let state ← recipientPreKeyState host ciphertext
    return (false, working.promoteState state, state)

variable [Wire RecordStructure]

def workingRecord (stored : Option SessionRecord) : Except SessionErr SessionRecord :=
  match stored with
  | none => .ok .fresh
  | some r => SessionRecord.deserialize r.serialize

omit [Hash] [X25519] [IncrementalKem] [StateCodec] [Aes] [Wire SessionState] [Wire PreKeyRecordStructure]
  [Wire SignedPreKeyRecordStructure] [EdwardsPoints] [Kem.Kyber1024] in
lemma workingRecord_eq (stored : Option SessionRecord) : workingRecord stored = .ok (stored.getD .fresh) := by
  cases stored with
  | none => rfl
  | some r => exact SessionRecord.deserialize_serialize r

def decryptPreKey (host : Host σ) (ciphertext : PreKeySignalMessage) (remote : ProtocolAddress) (rng : Reader) :
    Op σ SessionErr Bytes := do
  let trusted ← storeCall .trustCheck (host.isTrustedIdentity remote ciphertext.identityKey .receiving)
  if trusted = false then .fail .untrustedIdentity
  else do
    let stored ← storeCall .loadSession (host.loadSession remote)
    let working ← .lift (workingRecord stored)
    let (matched, working, state) ← preKeyRecord host ciphertext working
    let (plaintext, state) ← .lift (decryptWithState state ciphertext.message rng)
    commitPreKey host ciphertext remote matched { working with current := some state }
    return plaintext

end

section
variable [Hash] [X25519] [StateCodec] [Kem.Kyber1024]

def aliceParamsOf (ourIdentity ourBase : KeyPair) (bundle : PreKeyBundle) : AliceParams :=
  { ourIdentity := ourIdentity, ourBase := ourBase, theirIdentity := bundle.identityKey,
    theirSignedPre := bundle.signedPreKey, theirOneTime := bundle.preKey.map (·.2),
    theirKyber := bundle.kyberPreKey }

def bundleSession (rng : Reader) (coins : Bytes) (now : UInt64) (bundle : PreKeyBundle)
    (ourIdentity ourBase : KeyPair) (localRegistrationID : UInt32) : Except SessionErr SessionState := do
  let state ← initializeAliceSession rng coins (aliceParamsOf ourIdentity ourBase bundle)
  let state := state.setUnacknowledgedPreKeyMessage (bundle.preKey.map (·.1)) bundle.signedPreKeyID
    ourBase.publicKey now
  let state ← state.setUnacknowledgedKyberPreKeyID bundle.kyberPreKeyID
  return { state with localRegistrationId := localRegistrationID, remoteRegistrationId := bundle.registrationID }

lemma bundleSession_inv {rng : Reader} {coins : Bytes} {now : UInt64} {bundle : PreKeyBundle}
    {ourIdentity ourBase : KeyPair} {id : UInt32} {s : SessionState}
    (h : bundleSession rng coins now bundle ourIdentity ourBase id = .ok s) :
    ∃ s0 pk, initializeAliceSession rng coins (aliceParamsOf ourIdentity ourBase bundle) = .ok s0 ∧
      s0.pendingKyberPreKey = some pk ∧ s = { s0 with
        pendingPreKey := some ⟨bundle.preKey.map (·.1), bundle.signedPreKeyID.toInt32,
          ourBase.publicKey.serialize, now⟩,
        pendingKyberPreKey := some { pk with preKeyId := bundle.kyberPreKeyID },
        localRegistrationId := id, remoteRegistrationId := bundle.registrationID } := by
  obtain ⟨s0, hs0, h⟩ := bind_eq_ok h
  obtain ⟨s1, hs1, h⟩ := bind_eq_ok h
  rw [SessionState.setUnacknowledgedKyberPreKeyID] at hs1
  cases hpk : s0.pendingKyberPreKey with
  | none => simp only [SessionState.setUnacknowledgedPreKeyMessage, hpk] at hs1; cases hs1
  | some pk =>
    simp only [SessionState.setUnacknowledgedPreKeyMessage, hpk] at hs1
    cases hs1
    cases h
    exact ⟨s0, pk, hs0, hpk, rfl⟩

variable [XEdDSA] [Wire SessionState]

def processPreKeyBundle (host : Host σ) (rng : Readers) (coins : Bytes) (now : UInt64) (remote : ProtocolAddress)
    (bundle : PreKeyBundle) : Op σ SessionErr Unit := do
  let trusted ← storeCall .trustCheck (host.isTrustedIdentity remote bundle.identityKey .sending)
  if trusted = false then .fail .untrustedIdentity
  else if verifySignature bundle.identityKey bundle.signedPreKeySig bundle.signedPreKey.serialize = false then
    .fail (.invalidSignature false)
  else if verifySignature bundle.identityKey bundle.kyberPreKeySig bundle.kyberPreKey.serialize = false then
    .fail (.invalidSignature true)
  else do
    let loaded ← storeCall .loadSession (host.loadSession remote)
    let ourIdentity ← storeCall .identityKeyPair host.getIdentityKeyPair
    let localRegistrationID ← storeCall .localRegistrationID host.getLocalRegistrationID
    let baseKeyPair ← .lift ((generateKeyPair (rng 0)).mapError .baseKey)
    let state ← .lift (bundleSession (rng 1) coins now bundle ourIdentity baseKeyPair localRegistrationID)
    let _ ← storeCall .saveIdentity (host.saveIdentity remote bundle.identityKey)
    let record := (loaded.getD .fresh).promoteState state
    -- only a record that came from the store can be an alias of it
    .modify fun s => if loaded.isSome then host.touch remote record s else s
    storeCall .storeSession (host.storeSession remote record)

end

end LibSignal.Session
