import LibSignal.Session.State

/-!
# The receive path of the Double Ratchet

Model of the part of `session/cipher.go` that works on one session state: finding or creating the chain of a
ratchet key, resolving the key of a counter on it, and decryption.
-/

namespace LibSignal.Session
open Chunked (Bytes)
open Crypto Curve Lib Protocol Ratchet
open Spqr (StateCodec)

section
variable [Hash]

def dhRatchetStep [X25519] (state : SessionState) (theirRatchet : PublicKey) (rng : Reader) :
    Except SessionErr (ChainKey × SessionState) := do
  let rk ← (newRootKey state.rootKey).mapError .rootKey
  let ourCurrent ← state.senderRatchetKeyPair
  let (receiverRoot, receiverChain) ← (rk.createChain theirRatchet ourCurrent.privateKey).mapError
    .receiverRatchet
  let ourNew ← (generateKeyPair rng).mapError .newRatchetKey
  let (senderRoot, senderChain) ← (receiverRoot.createChain theirRatchet ourNew.privateKey).mapError
    .senderRatchet
  let added := SessionState.addReceiverChain { state with rootKey := senderRoot.key } theirRatchet receiverChain
  -- the counter of the previous chain is its last index; an unreadable chain key leaves it as it is
  let counted := match added.senderChainKey with
    | .ok cur => { added with previousCounter := if cur.index > 0 then cur.index - 1 else 0 }
    | .error _ => added
  return (receiverChain, counted.setSenderChain ourNew senderChain)

variable {ck : ChainKey} {k : PublicKey} {m : SignalMessage} {ptext : Bytes} {rng : Reader}
  {s s' : SessionState}

lemma dhRatchetStep_inv [X25519] {their : PublicKey} (h : dhRatchetStep s their rng = .ok (ck, s')) :
    ∃ rk ourCurrent receiverRoot ourNew senderRoot senderChain,
      newRootKey s.rootKey = .ok rk ∧ s.senderRatchetKeyPair = .ok ourCurrent ∧
      rk.createChain their ourCurrent.privateKey = .ok (receiverRoot, ck) ∧
      generateKeyPair rng = .ok ourNew ∧
      receiverRoot.createChain their ourNew.privateKey = .ok (senderRoot, senderChain) ∧
      ∃ counter, s' = ({ SessionState.addReceiverChain { s with rootKey := senderRoot.key } their ck with
        previousCounter := counter } : SessionState).setSenderChain ourNew senderChain := by
  obtain ⟨rk, hrk, h⟩ := bind_eq_ok h
  obtain ⟨ourCurrent, hcur, h⟩ := bind_eq_ok h
  obtain ⟨⟨receiverRoot, receiverChain⟩, hrecv, h⟩ := bind_eq_ok h
  obtain ⟨ourNew, hnew, h⟩ := bind_eq_ok h
  obtain ⟨⟨senderRoot, senderChain⟩, hsend, h⟩ := bind_eq_ok h
  cases h
  refine ⟨rk, ourCurrent, receiverRoot, ourNew, senderRoot, senderChain, mapError_eq_ok hrk, hcur,
    mapError_eq_ok hrecv, mapError_eq_ok hnew, mapError_eq_ok hsend, ?_⟩
  dsimp only
  split
  · exact ⟨_, rfl⟩
  · exact ⟨s.previousCounter, rfl⟩

def getOrCreateChainKey [X25519] (state : SessionState) (theirRatchet : PublicKey) (rng : Reader) :
    Except SessionErr (ChainKey × SessionState) := do
  match ← state.receiverChainKey theirRatchet with
  | some ck => return (ck, state)
  | none => dhRatchetStep state theirRatchet rng

lemma getOrCreateChainKey_inv [X25519] (h : getOrCreateChainKey s k rng = .ok (ck, s')) :
    (s.receiverChainKey k = .ok (some ck) ∧ s' = s) ∨
      (s.receiverChainKey k = .ok none ∧ dhRatchetStep s k rng = .ok (ck, s')) := by
  obtain ⟨found, hfound, h⟩ := bind_eq_ok h
  cases found with
  | some ck' => cases h; exact .inl ⟨hfound, rfl⟩
  | none => exact .inr ⟨hfound, h⟩

def skipMessageKeys (theirRatchet : PublicKey) (counter : UInt32) :
    Nat → ChainKey → SessionState → Except SessionErr (ChainKey × SessionState)
  | 0, ck, state => .ok (ck, state)
  | fuel + 1, ck, state =>
    if ck.index < counter then do
      let state ← state.cacheMessageKeys theirRatchet ck.messageKeys
      skipMessageKeys theirRatchet counter fuel ck.next state
    else .ok (ck, state)

def getOrCreateMessageKeys (state : SessionState) (theirRatchet : PublicKey) (chainKey : ChainKey)
    (counter : UInt32) : Except SessionErr (MessageKeyGenerator × SessionState) :=
  if chainKey.index > counter then do
    match ← state.takeMessageKeys theirRatchet counter with
    | (some gen, state) => return (gen, state)
    | (none, _) => .error (.duplicateMessage counter)
  else if counter - chainKey.index > maxForwardJumps then
    .error (.invalidMessage (.tooFar (counter - chainKey.index)))
  else do
    let (ck, state) ← skipMessageKeys theirRatchet counter (counter - chainKey.index).toNat chainKey state
    let state ← state.setReceiverChainKey theirRatchet ck.next
    return (ck.messageKeys, state)

lemma skipMessageKeys_frame {counter : UInt32} (fuel : Nat) :
    ∀ {ck ck' : ChainKey} {s s' : SessionState}, skipMessageKeys k counter fuel ck s = .ok (ck', s') →
      s' = s.withChains s'.receiverChains := by
  induction fuel with
  | zero =>
    intro ck ck' s s' h
    cases h
    rfl
  | succ fuel ih =>
    intro ck ck' s s' h
    rw [skipMessageKeys] at h
    split at h
    · obtain ⟨s1, hs1, h⟩ := bind_eq_ok h
      have hrest := ih h
      rw [SessionState.cacheMessageKeys_inv hs1] at hrest
      exact hrest
    · cases h
      rfl

lemma getOrCreateMessageKeys_frame {counter : UInt32} {gen : MessageKeyGenerator}
    (h : getOrCreateMessageKeys s k ck counter = .ok (gen, s')) : s' = s.withChains s'.receiverChains := by
  rw [getOrCreateMessageKeys] at h
  split at h
  · obtain ⟨⟨found, s1⟩, htake, h⟩ := bind_eq_ok h
    cases found with
    | none => cases h
    | some gen' =>
      cases h
      exact SessionState.takeMessageKeys_inv htake
  · split at h
    · cases h
    · obtain ⟨⟨ck', s1⟩, hskip, h⟩ := bind_eq_ok h
      obtain ⟨s2, hset, h⟩ := bind_eq_ok h
      cases h
      have hrest := SessionState.setReceiverChainKey_inv hset
      rw [skipMessageKeys_frame _ hskip] at hrest
      exact hrest

lemma getOrCreateChainKey_parties [X25519] (h : getOrCreateChainKey s k rng = .ok (ck, s')) :
    s'.parties = s.parties := by
  rcases getOrCreateChainKey_inv h with ⟨_, rfl⟩ | ⟨_, hstep⟩
  · rfl
  · obtain ⟨_, _, _, _, _, _, _, _, _, _, _, _, rfl⟩ := dhRatchetStep_inv hstep
    rfl

variable [X25519] [IncrementalKem] [StateCodec] [Aes]

def decryptWithState (state : SessionState) (ciphertext : SignalMessage) (rng : Reader) :
    Except SessionErr (Bytes × SessionState) :=
  if state.rootKey.length = 0 then .error (.invalidMessage .noSession)
  else if ciphertext.messageVersion.toUInt32 ≠ state.sessionVersion then
    .error (.invalidMessage (.version ciphertext.messageVersion state.sessionVersion))
  else do
    let (chainKey, state) ← getOrCreateChainKey state ciphertext.senderRatchet rng
    let (gen, state) ← getOrCreateMessageKeys state ciphertext.senderRatchet chainKey ciphertext.counter
    let (pqrKey, state) ← state.pqRatchetRecv ciphertext.pqRatchet
    let mk ← (gen.generateKeys pqrKey).mapError .messageKeys
    let senderID ← (deserializePublicKey state.remoteIdentityPublic).mapError .remoteIdentity
    let receiverID ← (deserializePublicKey state.localIdentityPublic).mapError .localIdentity
    let ok ← (ciphertext.verifyMAC senderID receiverID mk.macKey).mapError .macCheck
    if ok = false then .error (.invalidMessage .macVerification)
    else do
      let ptext ← (decryptCBC ciphertext.ciphertext mk.cipherKey mk.iv).mapError
        fun e => .invalidMessage (.decryption e)
      return (ptext, state.clearUnacknowledgedPreKeyMessage)

lemma decryptWithState_inv (h : decryptWithState s m rng = .ok (ptext, s')) :
    s.rootKey.length ≠ 0 ∧ m.messageVersion.toUInt32 = s.sessionVersion ∧
    ∃ ck s1 gen s2 pqrKey s3 mk senderID receiverID, getOrCreateChainKey s m.senderRatchet rng = .ok (ck, s1) ∧
      getOrCreateMessageKeys s1 m.senderRatchet ck m.counter = .ok (gen, s2) ∧
      s2.pqRatchetRecv m.pqRatchet = .ok (pqrKey, s3) ∧ gen.generateKeys pqrKey = .ok mk ∧
      deserializePublicKey s3.remoteIdentityPublic = .ok senderID ∧
      deserializePublicKey s3.localIdentityPublic = .ok receiverID ∧
      m.verifyMAC senderID receiverID mk.macKey = .ok true ∧
      decryptCBC m.ciphertext mk.cipherKey mk.iv = .ok ptext ∧ s' = s3.clearUnacknowledgedPreKeyMessage := by
  rw [decryptWithState] at h
  split at h
  · cases h
  split at h
  · cases h
  obtain ⟨⟨ck, s1⟩, hck, h⟩ := bind_eq_ok h
  obtain ⟨⟨gen, s2⟩, hgen, h⟩ := bind_eq_ok h
  obtain ⟨⟨pqrKey, s3⟩, hpqr, h⟩ := bind_eq_ok h
  obtain ⟨mk, hmk, h⟩ := bind_eq_ok h
  obtain ⟨senderID, hsender, h⟩ := bind_eq_ok h
  obtain ⟨receiverID, hreceiver, h⟩ := bind_eq_ok h
  obtain ⟨ok, hok, h⟩ := bind_eq_ok h
  cases ok with
  | false => cases h
  | true =>
    obtain ⟨pt, hpt, h⟩ := bind_eq_ok h
    cases h
    exact ⟨‹_›, not_not.mp ‹_›, ck, s1, gen, s2, pqrKey, s3, mk, senderID, receiverID, hck, hgen, hpqr,
      mapError_eq_ok hmk, mapError_eq_ok hsender, mapError_eq_ok hreceiver, mapError_eq_ok hok,
      mapError_eq_ok hpt, rfl⟩

lemma decryptWithState_parties (h : decryptWithState s m rng = .ok (ptext, s')) :
    s'.parties = s.parties ∧ s'.pendingPreKey = none ∧ s'.pendingKyberPreKey = none := by
  obtain ⟨_, _, ck, s1, gen, s2, key, s3, _, _, _, hck, hgen, hrecv, _, _, _, _, _, rfl⟩ := decryptWithState_inv h
  obtain ⟨_, _, _, rfl⟩ := SessionState.pqRatchetRecv_inv hrecv
  refine ⟨?_, rfl, rfl⟩
  rw [← getOrCreateChainKey_parties hck, getOrCreateMessageKeys_frame hgen]
  rfl

lemma decryptWithState_ratchet (h : decryptWithState s m rng = .ok (ptext, s')) :
    ∃ res, Spqr.recv s.pqRatchetState m.pqRatchet = .ok res ∧ s'.pqRatchetState = res.state := by
  obtain ⟨_, _, ck, s1, gen, s2, key, s3, _, _, _, hck, hgen, hrecv, _, _, _, _, _, rfl⟩ := decryptWithState_inv h
  obtain ⟨res, hres, _, rfl⟩ := SessionState.pqRatchetRecv_inv hrecv
  refine ⟨res, ?_, rfl⟩
  have hsame : s1.pqRatchetState = s.pqRatchetState := by
    rcases getOrCreateChainKey_inv hck with ⟨_, rfl⟩ | ⟨_, hstep⟩
    · rfl
    · obtain ⟨_, _, _, _, _, _, _, _, _, _, _, _, rfl⟩ := dhRatchetStep_inv hstep
      rfl
  rw [getOrCreateMessageKeys_frame hgen] at hres
  rw [← hsame]
  exact hres

end

end LibSignal.Session
