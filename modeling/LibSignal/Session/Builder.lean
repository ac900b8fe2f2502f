import LibSignal.Session.State

/-!
# Building sessions

Model of `session/builder.go` up to its store calls, and of `session/bundle.go`: the handshake of an initiator
(`initializeAliceSession`) and of a recipient (`initializeBobSession`).
-/

namespace LibSignal.Session
open Chunked (Bytes)
open Crypto Curve Lib Ratchet
open Spqr (StateCodec)

structure PreKeyBundle where
  registrationID : UInt32
  deviceID : UInt32
  preKey : Option (UInt32 × PublicKey)
  signedPreKeyID : UInt32
  signedPreKey : PublicKey
  signedPreKeySig : Bytes
  kyberPreKeyID : UInt32
  kyberPreKey : Kem.PublicKey
  kyberPreKeySig : Bytes
  identityKey : PublicKey
deriving DecidableEq, Repr

structure AliceParams where
  ourIdentity : KeyPair
  ourBase : KeyPair
  theirIdentity : PublicKey
  theirSignedPre : PublicKey
  theirOneTime : Option PublicKey
  theirKyber : Kem.PublicKey
deriving DecidableEq, Repr

structure BobParams where
  ourIdentity : KeyPair
  ourSignedPre : KeyPair
  ourOneTime : Option KeyPair
  ourKyber : Kem.KeyPair
  theirIdentity : PublicKey
  theirBaseKey : PublicKey
  kyberCipher : Bytes
deriving DecidableEq, Repr

def pqrInitialState [Hash] [StateCodec] (dir : Spqr.Direction) (authKey : Bytes)
    (localIdentity remoteIdentity : PublicKey) : Bytes :=
  let selfSession := localIdentity.equal remoteIdentity
  let maxJump : UInt32 := if selfSession then 0xFFFFFFFF else maxForwardJumps
  Spqr.initialState { direction := dir, version := Spqr.v1, minVersion := Spqr.v1, authKey := authKey,
                      chainParams := some ⟨maxJump, maxMessageKeys.toUInt32⟩ }

section
variable [X25519]

def agree (i : Nat) (priv : PrivateKey) (pub : PublicKey) : Except SessionErr Bytes :=
  (priv.calculateAgreement pub).mapError fun e => .invalidKey (.agreement i e)

def AliceParams.agreements (p : AliceParams) : Except SessionErr (Bytes × Bytes × Bytes × Bytes) := do
  let dh1 ← agree 1 p.ourIdentity.privateKey p.theirSignedPre
  let dh2 ← agree 2 p.ourBase.privateKey p.theirIdentity
  let dh3 ← agree 3 p.ourBase.privateKey p.theirSignedPre
  let dh4 ← match p.theirOneTime with
    | some k => agree 4 p.ourBase.privateKey k
    | none => .ok []
  return (dh1, dh2, dh3, dh4)

def BobParams.agreements (p : BobParams) : Except SessionErr (Bytes × Bytes × Bytes × Bytes) := do
  let dh1 ← agree 1 p.ourSignedPre.privateKey p.theirIdentity
  let dh2 ← agree 2 p.ourIdentity.privateKey p.theirBaseKey
  let dh3 ← agree 3 p.ourSignedPre.privateKey p.theirBaseKey
  let dh4 ← match p.ourOneTime with
    | some k => agree 4 k.privateKey p.theirBaseKey
    | none => .ok []
  return (dh1, dh2, dh3, dh4)

variable [Hash] [StateCodec] [Kem.Kyber1024]

def aliceState (p : AliceParams) (initial : InitialKeys) (sendingRatchet : KeyPair) (sendingRoot : RootKey)
    (sendingChain : ChainKey) (kyberCT : Bytes) : SessionState :=
  let st := { SessionState.empty with
    sessionVersion := signalMessageCurrentVersion.toUInt32,
    localIdentityPublic := p.ourIdentity.publicKey.serialize,
    remoteIdentityPublic := p.theirIdentity.serialize,
    rootKey := sendingRoot.key,
    aliceBaseKey := p.ourBase.publicKey.serialize }
  let st := (st.addReceiverChain p.theirSignedPre initial.chainKey).setSenderChain sendingRatchet sendingChain
  let st := { st with pqRatchetState := pqrInitialState .a2b initial.pqrSeed p.ourIdentity.publicKey p.theirIdentity }
  st.setKyberCiphertext kyberCT

def initializeAliceSession (rng : Reader) (coins : Bytes) (p : AliceParams) :
    Except SessionErr SessionState := do
  let (dh1, dh2, dh3, dh4) ← p.agreements
  let (kyberSS, kyberCT) ← (p.theirKyber.encapsulate coins).mapError fun e => .invalidKey (.kyberEncapsulate e)
  let initial ← (deriveInitialKeys dh1 dh2 dh3 dh4 kyberSS).mapError .initialKeys
  let sendingRatchet ← (generateKeyPair rng).mapError .sendingRatchetKey
  let (sendingRoot, sendingChain) ← (initial.rootKey.createChain p.theirSignedPre
    sendingRatchet.privateKey).mapError .aliceRatchetStep
  return aliceState p initial sendingRatchet sendingRoot sendingChain kyberCT

variable {s : SessionState}

lemma initializeAliceSession_inv {rng : Reader} {coins : Bytes} {p : AliceParams}
    (h : initializeAliceSession rng coins p = .ok s) :
    ∃ dh1 dh2 dh3 dh4 kyberSS kyberCT initial ratchet root chain,
      p.agreements = .ok (dh1, dh2, dh3, dh4) ∧ p.theirKyber.encapsulate coins = .ok (kyberSS, kyberCT) ∧
      deriveInitialKeys dh1 dh2 dh3 dh4 kyberSS = .ok initial ∧ generateKeyPair rng = .ok ratchet ∧
      initial.rootKey.createChain p.theirSignedPre ratchet.privateKey = .ok (root, chain) ∧
      s = aliceState p initial ratchet root chain kyberCT := by
  obtain ⟨⟨dh1, dh2, dh3, dh4⟩, hdh, h⟩ := bind_eq_ok h
  obtain ⟨⟨kyberSS, kyberCT⟩, hkyber, h⟩ := bind_eq_ok h
  obtain ⟨initial, hinitial, h⟩ := bind_eq_ok h
  obtain ⟨ratchet, hratchet, h⟩ := bind_eq_ok h
  obtain ⟨⟨root, chain⟩, hchain, h⟩ := bind_eq_ok h
  cases h
  exact ⟨dh1, dh2, dh3, dh4, kyberSS, kyberCT, initial, ratchet, root, chain, hdh, mapError_eq_ok hkyber,
    mapError_eq_ok hinitial, mapError_eq_ok hratchet, mapError_eq_ok hchain, rfl⟩

lemma initializeAliceSession_chains {rng : Reader} {coins : Bytes} {p : AliceParams}
    (h : initializeAliceSession rng coins p = .ok s) : ∃ ck : ChainKey, ck.index = 0 ∧
      s.receiverChains = [⟨p.theirSignedPre.serialize, [], some (chainKeyToProto ck), []⟩] := by
  obtain ⟨dh1, dh2, dh3, dh4, ss, ct, initial, ratchet, root, chain, _, _, hinitial, _, _, rfl⟩ :=
    initializeAliceSession_inv h
  exact ⟨initial.chainKey, by rw [deriveInitialKeys_inv hinitial]; rfl, rfl⟩

def bobState (p : BobParams) (initial : InitialKeys) : SessionState :=
  let st := { SessionState.empty with
    sessionVersion := signalMessageCurrentVersion.toUInt32,
    localIdentityPublic := p.ourIdentity.publicKey.serialize,
    remoteIdentityPublic := p.theirIdentity.serialize,
    rootKey := initial.rootKey.key,
    aliceBaseKey := p.theirBaseKey.serialize }
  let st := st.setSenderChain p.ourSignedPre initial.chainKey
  { st with pqRatchetState := pqrInitialState .b2a initial.pqrSeed p.ourIdentity.publicKey p.theirIdentity }

def initializeBobSession [EdwardsPoints] (p : BobParams) : Except SessionErr SessionState :=
  if p.kyberCipher.length = 0 then .error .noKyberPreKey
  else if p.theirBaseKey.isCanonical = false then .error (.invalidKey .baseKeyNotCanonical)
  else do
    let (dh1, dh2, dh3, dh4) ← p.agreements
    let kyberSS ← (p.ourKyber.secretKey.decapsulate p.kyberCipher).mapError
      fun e => .invalidKey (.kyberDecapsulate e)
    let initial ← (deriveInitialKeys dh1 dh2 dh3 dh4 kyberSS).mapError .initialKeys
    return bobState p initial

lemma initializeBobSession_inv [EdwardsPoints] {p : BobParams} (h : initializeBobSession p = .ok s) :
    p.kyberCipher.length ≠ 0 ∧ p.theirBaseKey.isCanonical = true ∧
    ∃ dh1 dh2 dh3 dh4 kyberSS initial, p.agreements = .ok (dh1, dh2, dh3, dh4) ∧
      p.ourKyber.secretKey.decapsulate p.kyberCipher = .ok kyberSS ∧
      deriveInitialKeys dh1 dh2 dh3 dh4 kyberSS = .ok initial ∧ s = bobState p initial := by
  rw [initializeBobSession] at h
  split at h
  · cases h
  split at h
  · cases h
  rename_i hcanonical
  obtain ⟨⟨dh1, dh2, dh3, dh4⟩, hdh, h⟩ := bind_eq_ok h
  obtain ⟨kyberSS, hkyber, h⟩ := bind_eq_ok h
  obtain ⟨initial, hinitial, h⟩ := bind_eq_ok h
  cases h
  exact ⟨‹_›, Bool.eq_true_of_not_eq_false hcanonical, dh1, dh2, dh3, dh4, kyberSS, initial, hdh,
    mapError_eq_ok hkyber, mapError_eq_ok hinitial, rfl⟩

lemma initializeBobSession_chains [EdwardsPoints] {p : BobParams} (h : initializeBobSession p = .ok s) :
    s.receiverChains = [] := by
  obtain ⟨_, _, _, _, _, _, _, _, _, _, _, rfl⟩ := initializeBobSession_inv h
  rfl

end

end LibSignal.Session
