import LibSignal.Session.Stored
import LibSignal.Spqr.UnaryCodec

/-!
# The in-memory stores

Model of the five stores of `stores/inmem/inmem.go` that the session calls use. Maps are functions; copies of
bytes are the bytes.
-/

namespace LibSignal.Stores
open Address (ProtocolAddress)
open Chunked (Bytes)
open Crypto Curve Lib Proto Session

structure InMem where
  keyPair : KeyPair
  registrationID : UInt32
  knownKeys : ProtocolAddress → Option PublicKey
  preKeys : UInt32 → Option Bytes
  signedPreKeys : UInt32 → Option Bytes
  kyberPreKeys : UInt32 → Option Bytes
  baseKeysSeen : UInt32 × UInt32 → List PublicKey
  sessions : ProtocolAddress → Option Bytes

namespace InMem

def new (keyPair : KeyPair) (registrationID : UInt32) : InMem :=
  ⟨keyPair, registrationID, fun _ => none, fun _ => none, fun _ => none, fun _ => none, fun _ => [], fun _ => none⟩

def saveIdentity (addr : ProtocolAddress) (identity : PublicKey) : Op InMem Unit IdentityChange := fun s =>
  match s.knownKeys addr with
  | some existing =>
    if existing.equal identity then (.ok .newOrUnchanged, s)
    else (.ok .replacedExisting, { s with knownKeys := Function.update s.knownKeys addr (some identity) })
  | none => (.ok .newOrUnchanged, { s with knownKeys := Function.update s.knownKeys addr (some identity) })

def isTrustedIdentity (addr : ProtocolAddress) (identity : PublicKey) (_ : Direction) : Op InMem Unit Bool :=
  fun s =>
    match s.knownKeys addr with
    | none => (.ok true, s)
    | some existing => (.ok (existing.equal identity), s)

def entry (f : InMem → Option Bytes) : Op InMem Unit Bytes := fun s =>
  match f s with
  | some record => (.ok record, s)
  | none => (.error (), s)

def markKyberPreKeyUsed (kyberPreKeyID ecPreKeyID : UInt32) (baseKey : PublicKey) : Op InMem Unit Unit :=
  fun s =>
    let key := (kyberPreKeyID, ecPreKeyID)
    if (s.baseKeysSeen key).any (·.equal baseKey) then (.error (), s)
    else
      let seen := Function.update s.baseKeysSeen key (s.baseKeysSeen key ++ [baseKey])
      (.ok (), { s with baseKeysSeen := seen })

def loadSession [Wire RecordStructure] (addr : ProtocolAddress) : Op InMem Unit (Option SessionRecord) := fun s =>
  match s.sessions addr with
  | none => (.ok none, s)
  | some serialized =>
    match SessionRecord.deserialize serialized with
    | .error _ => (.error (), s)
    | .ok record => (.ok (some record), s)

def storeSession [Wire RecordStructure] (addr : ProtocolAddress) (record : SessionRecord) : Op InMem Unit Unit :=
  fun s => (.ok (), { s with sessions := Function.update s.sessions addr (some record.serialize) })

def host [Wire RecordStructure] : Host InMem where
  loadSession := loadSession
  storeSession := storeSession
  touch := fun _ _ s => s
  isTrustedIdentity := isTrustedIdentity
  saveIdentity := saveIdentity
  getIdentityKeyPair := fun s => (.ok s.keyPair, s)
  getLocalRegistrationID := fun s => (.ok s.registrationID, s)
  getPreKey := fun id => entry (·.preKeys id)
  removePreKey := fun id s => (.ok (), { s with preKeys := Function.update s.preKeys id none })
  getSignedPreKey := fun id => entry (·.signedPreKeys id)
  getKyberPreKey := fun id => entry (·.kyberPreKeys id)
  markKyberPreKeyUsed := markKyberPreKeyUsed

def records [Wire RecordStructure] (s : InMem) (addr : ProtocolAddress) : Option SessionRecord :=
  (s.sessions addr).bind fun b => (SessionRecord.deserialize b).toOption

lemma saveIdentity_sessions (addr : ProtocolAddress) (identity : PublicKey) (s : InMem) :
    (saveIdentity addr identity s).2.sessions = s.sessions := by
  rw [saveIdentity]
  split
  · split <;> rfl
  · rfl

lemma isTrustedIdentity_state (addr : ProtocolAddress) (identity : PublicKey) (d : Direction) (s : InMem) :
    (isTrustedIdentity addr identity d s).2 = s := by
  rw [isTrustedIdentity]
  split <;> rfl

lemma entry_state (f : InMem → Option Bytes) (s : InMem) : (entry f s).2 = s := by
  rw [entry]
  split <;> rfl

lemma markKyberPreKeyUsed_sessions (k e : UInt32) (b : PublicKey) (s : InMem) :
    (markKyberPreKeyUsed k e b s).2.sessions = s.sessions := by
  rw [markKyberPreKeyUsed]
  dsimp only
  split <;> rfl

variable [Wire RecordStructure]

lemma records_congr {s s' : InMem} (h : s'.sessions = s.sessions) : s'.records = s.records := by
  funext addr
  rw [records, h, records]

lemma records_store (s : InMem) (addr : ProtocolAddress) (r : SessionRecord) :
    (storeSession addr r s).2.records = Function.update s.records addr (some r) := by
  funext a
  rw [records, storeSession]
  dsimp only
  by_cases ha : a = addr
  · subst ha
    rw [Function.update_self, Function.update_self, Option.bind_some, SessionRecord.deserialize_serialize]
    rfl
  · rw [Function.update_of_ne ha, Function.update_of_ne ha]
    rfl

lemma loadSession_run (addr : ProtocolAddress) (s s' : InMem) (r : Except Unit (Option SessionRecord))
    (h : loadSession addr s = (r, s')) : s' = s ∧ ∀ rec, r = .ok rec → rec = s.records addr := by
  rw [records]
  rw [loadSession] at h
  split at h
  · rename_i hnone
    cases h
    refine ⟨rfl, fun rec hrec => ?_⟩
    cases hrec
    rw [hnone]
    rfl
  · rename_i b hb
    rw [hb, Option.bind_some]
    split at h
    · cases h
      exact ⟨rfl, fun rec hrec => nomatch hrec⟩
    · rename_i record hrecord
      cases h
      refine ⟨rfl, fun rec hrec => ?_⟩
      cases hrec
      rw [hrecord]
      rfl

lemma contract : host.Contract records where
  loadSession := by
    intro a s r s' h
    obtain ⟨rfl, hrec⟩ := loadSession_run a s s' r h
    exact ⟨rfl, hrec⟩
  storeSession := fun a r s => .inr (records_store s a r)
  storeSession_ok := by
    intro a r s s' h
    cases h
    exact records_store s a r
  touch := fun _ _ _ => .inl rfl
  isTrustedIdentity := fun a k d s => congrArg records (isTrustedIdentity_state a k d s)
  saveIdentity := fun a k s => records_congr (saveIdentity_sessions a k s)
  getIdentityKeyPair := fun _ => rfl
  getLocalRegistrationID := fun _ => rfl
  getPreKey := fun _ s => congrArg records (entry_state _ s)
  removePreKey := fun _ _ => rfl
  getSignedPreKey := fun _ s => congrArg records (entry_state _ s)
  getKyberPreKey := fun _ s => congrArg records (entry_state _ s)
  markKyberPreKeyUsed := fun k e b s => records_congr (markKyberPreKeyUsed_sessions k e b s)

lemma byValue : host.ByValue records where
  toContract := contract
  storeSession_error := by
    intro a r s s' h
    cases h
  touch_eq := fun _ _ _ => rfl

def aliasHost : Host InMem := { host with touch := fun addr record s => (storeSession addr record s).2 }

lemma reads (I : InMem → Prop) : host.Reads I where
  loadSession := fun a t => (congrArg I (loadSession_run a t _ _ rfl).1).mpr
  isTrustedIdentity := fun a k d t => (congrArg I (isTrustedIdentity_state a k d t)).mpr
  getIdentityKeyPair := fun _ ht => ht
  getLocalRegistrationID := fun _ ht => ht
  getPreKey := fun _ t => (congrArg I (entry_state _ t)).mpr
  getSignedPreKey := fun _ t => (congrArg I (entry_state _ t)).mpr
  getKyberPreKey := fun _ t => (congrArg I (entry_state _ t)).mpr

lemma aliasHost_reads (I : InMem → Prop) : aliasHost.Reads I :=
  ⟨(reads I).1, (reads I).2, (reads I).3, (reads I).4, (reads I).5, (reads I).6, (reads I).7⟩

end InMem

/-! ## A sample session

With the constant primitives, an identity talks to itself. -/

deriving instance Countable for ChainKeyPB
deriving instance Countable for MessageKeyPB
deriving instance Countable for Session.Chain
deriving instance Countable for PendingPreKey
deriving instance Countable for PendingKyberPreKey
deriving instance Countable for SessionState
deriving instance Countable for RecordStructure
deriving instance Countable for PreKeyRecordStructure
deriving instance Countable for SignedPreKeyRecordStructure

def sampleKeys : KeyPair := ⟨⟨.djb, 1 :: zeros 31, length_one_zeros⟩, privateKeyFromBytes (zeros 32) length_zeros_32⟩

def sampleBundle : PreKeyBundle where
  registrationID := 1
  deviceID := 1
  preKey := none
  signedPreKeyID := 2
  signedPreKey := sampleKeys.publicKey
  signedPreKeySig := []
  kyberPreKeyID := 3
  kyberPreKey := ⟨.kyber1024, zeros 1568⟩
  kyberPreKeySig := []
  identityKey := sampleKeys.publicKey

def samplePeer : ProtocolAddress := ⟨"peer", ⟨1⟩⟩

section
attribute [local instance] zeroHash oneX25519 Spqr.unaryCodec Kem.zeroKyber zeroXEdDSA
variable [Wire SessionState] [Wire RecordStructure]

lemma sample_processed : ∃ s t, bundleSession zeroReader [] 0 sampleBundle sampleKeys sampleKeys 7 = .ok s ∧
    processPreKeyBundle InMem.host (fun _ => zeroReader) [] 0 samplePeer sampleBundle (.new sampleKeys 7) =
      (.ok (), t) ∧ t.records samplePeer = some ⟨some s, []⟩ := by
  refine ⟨_, _, rfl, rfl, ?_⟩
  refine (congrFun (InMem.records_store _ samplePeer _) samplePeer).trans ?_
  rw [Function.update_self]
  rfl

end

end LibSignal.Stores
