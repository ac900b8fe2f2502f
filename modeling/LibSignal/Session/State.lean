import LibSignal.Crypto.Aes
import LibSignal.Kem.Keys
import LibSignal.Lib.SkipWindow
import LibSignal.Protocol.SignalMessage
import LibSignal.Ratchet.Keys
import LibSignal.Spqr.Ratchet

/-!
# The state of a session

Model of `session/state.go`.
-/

namespace LibSignal.Session
open Chunked (Bytes)
open Crypto Curve Lib Protocol Ratchet
open Spqr (StateCodec)

def maxMessageKeys : Nat := 2000
def maxReceiverChains : Nat := 5
def archivedStatesMaxLength : Nat := 40
def maxForwardJumps : UInt32 := 25000
def signalMessageCurrentVersion : UInt8 := 4

structure ChainKeyPB where
  index : UInt32
  key : Bytes
deriving DecidableEq, Repr

structure MessageKeyPB where
  index : UInt32
  cipherKey : Bytes
  macKey : Bytes
  iv : Bytes
  seed : Bytes
deriving DecidableEq, Repr

structure Chain where
  senderRatchetKey : Bytes
  senderRatchetKeyPrivate : Bytes
  chainKey : Option ChainKeyPB
  messageKeys : List MessageKeyPB
deriving DecidableEq, Repr

structure PendingPreKey where
  preKeyId : Option UInt32
  signedPreKeyId : Int32
  baseKey : Bytes
  timestamp : UInt64
deriving DecidableEq, Repr

structure PendingKyberPreKey where
  preKeyId : UInt32
  ciphertext : Bytes
deriving DecidableEq, Repr

structure SessionState where
  sessionVersion : UInt32
  localIdentityPublic : Bytes
  remoteIdentityPublic : Bytes
  rootKey : Bytes
  previousCounter : UInt32
  senderChain : Option Chain
  receiverChains : List Chain
  pendingPreKey : Option PendingPreKey
  pendingKyberPreKey : Option PendingKyberPreKey
  remoteRegistrationId : UInt32
  localRegistrationId : UInt32
  aliceBaseKey : Bytes
  pqRatchetState : Bytes
deriving DecidableEq, Repr

/-! ## Errors -/

inductive NotFound where
  | noRecord
  | senderChain (cause : Option RatchetErr)
  | staleUnacknowledged
deriving DecidableEq, Repr

inductive InvalidMessage where
  | noSession
  | version (message : UInt8) (session : UInt32)
  | tooFar (jump : UInt32)
  | macVerification
  | decryption (cause : CryptoErr)
  | missingArgument
  | missingStore
  | inconsistentIdentity
  | malformedArchive
  | notPQXDH
deriving DecidableEq, Repr

inductive InvalidKey where
  | agreement (i : Nat) (cause : CurveErr)
  | kyberEncapsulate (cause : Kem.KemKeyErr)
  | kyberDecapsulate (cause : Kem.KemKeyErr)
  | baseKeyNotCanonical
  | malformedSignedPreKey
  | malformedKyberPreKey
  | unusableKyberPreKey
  | malformedOneTimePreKey
  | unusablePreKeyPublic
  | unusablePreKeyPrivate
deriving DecidableEq, Repr

inductive StoreCall where
  | loadSession
  | storeSession
  | trustCheck
  | saveIdentity
  | identityKeyPair
  | localRegistrationID
  | signedPreKey
  | kyberPreKey
  | oneTimePreKey
  | markKyberPreKeyUsed
  | removePreKey
deriving DecidableEq, Repr

inductive SessionErr where
  | sessionNotFound (why : NotFound)
  | duplicateMessage (counter : UInt32)
  | invalidMessage (why : InvalidMessage)
  | invalidKey (why : InvalidKey)
  | untrustedIdentity
  | invalidSignature (kyber : Bool)
  | noKyberPreKey
  | invalidPreKeyBundle
  | store (call : StoreCall)
  | spqrSend (cause : Spqr.Err)
  | spqrRecv (cause : Spqr.Err)
  | noPendingKyberPreKey
  | noSenderChain
  | noSenderChainToUpdate
  | senderRatchetPublicKey (cause : CurveErr)
  | senderRatchetPrivateKey (cause : CurveErr)
  | senderRatchetKey (cause : CurveErr)
  | receiverChainHasNoChainKey
  | noReceiverChainForRatchetKey
  | noReceiverChainToCache
  | noReceiverChain
  | encodingCachedMessageKey (cause : RatchetErr)
  | decodingCachedMessageKey (cause : RatchetErr)
  | chainKey (cause : RatchetErr)
  | rootKey (cause : RatchetErr)
  | receiverRatchet (cause : RatchetErr)
  | senderRatchet (cause : RatchetErr)
  | newRatchetKey (cause : CurveErr)
  | messageKeys (cause : RatchetErr)
  | initialKeys (cause : RatchetErr)
  | baseKey (cause : CurveErr)
  | sendingRatchetKey (cause : CurveErr)
  | aliceRatchetStep (cause : RatchetErr)
  | localIdentity (cause : CurveErr)
  | remoteIdentity (cause : CurveErr)
  | pendingBaseKey (cause : CurveErr)
  | encryption (cause : CryptoErr)
  | buildingSignalMessage (cause : ProtocolErr)
  | macCheck (cause : ProtocolErr)
  | archivedIndexOutOfRange (index : Int) (have_ : Nat)
  | decodingArchivedSession (index : Nat)
  | decodingRecord
deriving DecidableEq, Repr

def chainKeyToProto (ck : ChainKey) : ChainKeyPB := ⟨ck.index, ck.key⟩

def chainKeyFromProto (p : ChainKeyPB) : Except SessionErr ChainKey :=
  (newChainKey p.key p.index).mapError .chainKey

@[simp] lemma chainKeyFromProto_toProto (ck : ChainKey) : chainKeyFromProto (chainKeyToProto ck) = .ok ck := by
  rw [chainKeyFromProto, chainKeyToProto, newChainKey_key]
  rfl

section
variable [Hash]

def messageKeyGenToProto (gen : MessageKeyGenerator) : Except SessionErr MessageKeyPB :=
  match gen with
  | .fromSeed seed counter => .ok ⟨counter, [], [], [], seed⟩
  | .fromKeys _ => do
    let mk ← (gen.generateKeys []).mapError .encodingCachedMessageKey
    return ⟨mk.index, mk.cipherKey, mk.macKey, mk.iv, []⟩

end

def messageKeyGenFromProto (pb : MessageKeyPB) : Except SessionErr MessageKeyGenerator :=
  if pb.seed.length ≠ 0 then .ok (.fromSeed pb.seed pb.index)
  else do
    let mk ← (newMessageKeys pb.cipherKey pb.macKey pb.iv pb.index).mapError .decodingCachedMessageKey
    return .fromKeys mk

namespace SessionState

def empty : SessionState :=
  ⟨0, [], [], [], 0, none, [], none, none, 0, 0, [], []⟩

def parties (s : SessionState) : UInt32 × Bytes × Bytes × UInt32 × UInt32 × Bytes :=
  (s.sessionVersion, s.localIdentityPublic, s.remoteIdentityPublic, s.localRegistrationId,
    s.remoteRegistrationId, s.aliceBaseKey)

section
variable [Hash] [IncrementalKem] [StateCodec]

def pqRatchetSend (s : SessionState) (rng : Reader) : Except SessionErr ((Bytes × Bytes) × SessionState) := do
  let res ← (Spqr.send s.pqRatchetState rng).mapError .spqrSend
  return ((res.msg, res.key.getD []), { s with pqRatchetState := res.state })

def pqRatchetRecv (s : SessionState) (msg : Bytes) : Except SessionErr (Bytes × SessionState) := do
  let res ← (Spqr.recv s.pqRatchetState msg).mapError .spqrRecv
  return (res.key.getD [], { s with pqRatchetState := res.state })

lemma pqRatchetSend_inv {s s' : SessionState} {rng : Reader} {out : Bytes × Bytes}
    (h : s.pqRatchetSend rng = .ok (out, s')) : ∃ res, Spqr.send s.pqRatchetState rng = .ok res ∧
      out = (res.msg, res.key.getD []) ∧ s' = { s with pqRatchetState := res.state } := by
  obtain ⟨res, hres, h⟩ := bind_eq_ok h
  cases h
  exact ⟨res, mapError_eq_ok hres, rfl, rfl⟩

lemma pqRatchetRecv_inv {s s' : SessionState} {msg key : Bytes}
    (h : s.pqRatchetRecv msg = .ok (key, s')) : ∃ res, Spqr.recv s.pqRatchetState msg = .ok res ∧
      key = res.key.getD [] ∧ s' = { s with pqRatchetState := res.state } := by
  obtain ⟨res, hres, h⟩ := bind_eq_ok h
  cases h
  exact ⟨res, mapError_eq_ok hres, rfl, rfl⟩

end

structure PendingPreKeyMessage where
  preKeyID : Option UInt32
  signedPreKeyID : UInt32
  kyberPreKeyID : Option UInt32
  kyberCiphertext : Bytes
  baseKey : Bytes
  unixSeconds : UInt64
deriving DecidableEq, Repr

def pendingPreKeyMessage (s : SessionState) : Option PendingPreKeyMessage :=
  s.pendingPreKey.map fun pp =>
    { preKeyID := pp.preKeyId, signedPreKeyID := pp.signedPreKeyId.toUInt32,
      kyberPreKeyID := s.pendingKyberPreKey.map (·.preKeyId),
      kyberCiphertext := (s.pendingKyberPreKey.map (·.ciphertext)).getD [],
      baseKey := pp.baseKey, unixSeconds := pp.timestamp }

def clearUnacknowledgedPreKeyMessage (s : SessionState) : SessionState :=
  { s with pendingPreKey := none, pendingKyberPreKey := none }

def setUnacknowledgedPreKeyMessage (s : SessionState) (preKeyID : Option UInt32) (signedPreKeyID : UInt32)
    (baseKey : PublicKey) (unixSeconds : UInt64) : SessionState :=
  { s with pendingPreKey := some ⟨preKeyID, signedPreKeyID.toInt32, baseKey.serialize, unixSeconds⟩ }

def setKyberCiphertext (s : SessionState) (ciphertext : Bytes) : SessionState :=
  { s with pendingKyberPreKey := some ⟨0xFFFFFFFF, ciphertext⟩ }

def setUnacknowledgedKyberPreKeyID (s : SessionState) (id : UInt32) : Except SessionErr SessionState :=
  match s.pendingKyberPreKey with
  | none => .error .noPendingKyberPreKey
  | some pk => .ok { s with pendingKyberPreKey := some { pk with preKeyId := id } }

def setSenderChain (s : SessionState) (senderRatchet : KeyPair) (chainKey : ChainKey) : SessionState :=
  { s with senderChain := some ⟨senderRatchet.publicKey.serialize, senderRatchet.privateKey.data,
      some (chainKeyToProto chainKey), []⟩ }

def senderChainKey (s : SessionState) : Except SessionErr ChainKey :=
  match s.senderChain.bind (·.chainKey) with
  | none => .error .noSenderChain
  | some ck => chainKeyFromProto ck

def setSenderChainKey (s : SessionState) (chainKey : ChainKey) : Except SessionErr SessionState :=
  match s.senderChain with
  | none => .error .noSenderChainToUpdate
  | some sc => .ok { s with senderChain := some { sc with chainKey := some (chainKeyToProto chainKey) } }

variable {ck : ChainKey} {k : PublicKey} {s s' : SessionState}

lemma setSenderChainKey_inv (h : s.setSenderChainKey ck = .ok s') : ∃ sc, s.senderChain = some sc ∧
      s' = { s with senderChain := some { sc with chainKey := some (chainKeyToProto ck) } } := by
  rw [setSenderChainKey] at h
  split at h
  · cases h
  · cases h
    exact ⟨_, ‹_›, rfl⟩

def senderRatchetKey (s : SessionState) : Except SessionErr PublicKey :=
  match s.senderChain with
  | none => .error .noSenderChain
  | some sc => (deserializePublicKey sc.senderRatchetKey).mapError .senderRatchetKey

def senderRatchetKeyPair (s : SessionState) : Except SessionErr KeyPair :=
  match s.senderChain with
  | none => .error .noSenderChain
  | some sc => do
    let pub ← (deserializePublicKey sc.senderRatchetKey).mapError .senderRatchetPublicKey
    let priv ← (deserializePrivateKey sc.senderRatchetKeyPrivate).mapError .senderRatchetPrivateKey
    return ⟨pub, priv⟩

/-! ## Receiver chains -/

def withChains (s : SessionState) (chains : List Chain) : SessionState := { s with receiverChains := chains }

@[simp] lemma withChains_withChains (s : SessionState) (l l' : List Chain) :
    (s.withChains l).withChains l' = s.withChains l' := rfl

/-- Append a receiver chain; the oldest one beyond the bound goes. -/
def addReceiverChain (s : SessionState) (senderRatchetKey : PublicKey) (chainKey : ChainKey) : SessionState :=
  let chains := s.receiverChains ++
    [⟨senderRatchetKey.serialize, [], some (chainKeyToProto chainKey), []⟩]
  { s with receiverChains := if chains.length > maxReceiverChains then chains.drop 1 else chains }

lemma addReceiverChain_chains (h : s.receiverChains.length ≤ maxReceiverChains) (k : PublicKey) (ck : ChainKey) :
    (s.addReceiverChain k ck).receiverChains =
      keepLast maxReceiverChains (s.receiverChains ++ [⟨k.serialize, [], some (chainKeyToProto ck), []⟩]) := by
  rw [addReceiverChain, keepLast]
  dsimp only
  split
  · rename_i hlong
    congr 1
    rw [List.length_append, List.length_singleton] at hlong ⊢
    omega
  · rename_i hshort
    rw [Nat.sub_eq_zero_of_le (not_lt.mp hshort), List.drop_zero]

def receiverChainIndex (s : SessionState) (senderRatchetKey : PublicKey) : Option Nat :=
  s.receiverChains.findIdx? (·.senderRatchetKey == senderRatchetKey.serialize)

def modifyChain (s : SessionState) (i : Nat) (f : Chain → Chain) : SessionState :=
  { s with receiverChains := s.receiverChains.modify i f }

def receiverChainKey (s : SessionState) (senderRatchetKey : PublicKey) :
    Except SessionErr (Option ChainKey) :=
  match s.receiverChains.find? (·.senderRatchetKey == senderRatchetKey.serialize) with
  | none => .ok none
  | some chain =>
    match chain.chainKey with
    | none => .error .receiverChainHasNoChainKey
    | some ck => (chainKeyFromProto ck).map some

lemma receiverChainKey_none (h : s.receiverChainKey k = .ok none) :
    ∀ c ∈ s.receiverChains, c.senderRatchetKey ≠ k.serialize := by
  rw [receiverChainKey] at h
  split at h
  · rename_i hnone
    intro c hc heq
    exact List.find?_eq_none.mp hnone c hc (beq_iff_eq.mpr heq)
  · split at h
    · cases h
    · obtain ⟨_, _, hnone⟩ := map_eq_ok h
      cases hnone

lemma receiverChainKey_some (h : s.receiverChainKey k = .ok (some ck)) :
    ∃ c pb, s.receiverChains.find? (·.senderRatchetKey == k.serialize) = some c ∧ c.chainKey = some pb ∧
      chainKeyFromProto pb = .ok ck := by
  rw [receiverChainKey] at h
  split at h
  · cases h
  · rename_i c hc
    split at h
    · cases h
    · rename_i pb hpb
      obtain ⟨_, hck, hsome⟩ := map_eq_ok h
      cases hsome
      exact ⟨c, pb, hc, hpb, hck⟩

def setReceiverChainKey (s : SessionState) (senderRatchetKey : PublicKey) (chainKey : ChainKey) :
    Except SessionErr SessionState :=
  match s.receiverChainIndex senderRatchetKey with
  | none => .error .noReceiverChainForRatchetKey
  | some i => .ok (s.modifyChain i fun c => { c with chainKey := some (chainKeyToProto chainKey) })

/-- Cache a skipped message key at the front; the oldest ones beyond the bound go. -/
def cacheMessageKeys [Hash] (s : SessionState) (senderRatchetKey : PublicKey) (gen : MessageKeyGenerator) :
    Except SessionErr SessionState :=
  match s.receiverChainIndex senderRatchetKey with
  | none => .error .noReceiverChainToCache
  | some i => do
    let entry ← messageKeyGenToProto gen
    return s.modifyChain i fun c => { c with messageKeys := (entry :: c.messageKeys).take maxMessageKeys }

def takeMessageKeys (s : SessionState) (senderRatchetKey : PublicKey) (index : UInt32) :
    Except SessionErr (Option MessageKeyGenerator × SessionState) :=
  match s.receiverChainIndex senderRatchetKey with
  | none => .error .noReceiverChain
  | some i =>
    match (s.receiverChains[i]?.map (·.messageKeys)).getD [] |>.find? (·.index == index) with
    | none => .ok (none, s)
    | some e => do
      let gen ← messageKeyGenFromProto e
      return (some gen, s.modifyChain i fun c =>
        { c with messageKeys := c.messageKeys.eraseP (·.index == index) })

lemma setReceiverChainKey_inv (h : s.setReceiverChainKey k ck = .ok s') :
    s' = s.withChains s'.receiverChains := by
  rw [setReceiverChainKey] at h
  split at h <;> cases h
  rfl

lemma cacheMessageKeys_inv [Hash] {gen : MessageKeyGenerator} (h : s.cacheMessageKeys k gen = .ok s') :
    s' = s.withChains s'.receiverChains := by
  rw [cacheMessageKeys] at h
  split at h
  · cases h
  · obtain ⟨_, _, h⟩ := bind_eq_ok h
    cases h
    rfl

lemma takeMessageKeys_inv {index : UInt32} {found : Option MessageKeyGenerator}
    (h : s.takeMessageKeys k index = .ok (found, s')) : s' = s.withChains s'.receiverChains := by
  rw [takeMessageKeys] at h
  split at h
  · cases h
  · split at h
    · cases h
      rfl
    · obtain ⟨_, _, h⟩ := bind_eq_ok h
      cases h
      rfl

end SessionState

end LibSignal.Session
