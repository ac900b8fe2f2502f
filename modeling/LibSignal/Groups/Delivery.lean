import LibSignal.Groups.Cipher

/-!
# Delivery of group messages

`Sends` are the runs of a sender that creates a chain, announces it and encrypts; `Receives` the runs of a
receiver that processed an announcement, in which messages come in any order, any number of times or never,
mixed with failing decryptions and further announcements.
-/

namespace LibSignal.Groups
open Chunked (Bytes)
open Crypto Curve Proto Protocol Lib Address

/-! ## The sender -/

section
variable [X25519]

structure SenderChain where
  chainID : UInt32
  seed : Bytes
  signingKey : KeyPair
  length_seed : seed.length = chainKeyLen
  valid : signingKey.Valid

namespace SenderChain
variable [Hash] [Aes] [XEdDSA] [Wire SenderKeyMessagePB] [Wire SenderKeyDistributionMessagePB]

omit [Aes] [XEdDSA] [Wire SenderKeyMessagePB] [Wire SenderKeyDistributionMessagePB] in
def stateAt (ch : SenderChain) (n : Nat) : SenderKeyState :=
  { newSenderKeyState senderKeyMessageVersion ch.chainID 0 ch.seed ch.signingKey.publicKey
      (some ch.signingKey.privateKey) with senderChainKey := some (chainAt ch.seed n) }

/-- The message of an iteration for a plaintext. -/
def Message (ch : SenderChain) (distributionID : DistributionID) (k : Nat) (plaintext : Bytes)
    (m : SenderKeyMessage) : Prop :=
  k + 1 < 2 ^ 32 ∧ ∃ ciphertext rng,
    encryptCBC plaintext (messageKeyAt ch.seed k).cipherKey (messageKeyAt ch.seed k).iv = .ok ciphertext ∧
    newSenderKeyMessage distributionID ch.chainID k.toUInt32 (some ciphertext) rng ch.signingKey.privateKey
      = .ok m

omit [Aes] [XEdDSA] [Wire SenderKeyMessagePB] in
def announcement (ch : SenderChain) (distributionID : DistributionID) (i : Nat) :
    SenderKeyDistributionMessage :=
  newSenderKeyDistributionMessage distributionID ch.chainID i.toUInt32 (some (chainKeyAt ch.seed i))
    ch.signingKey.publicKey

section
omit [Aes] [XEdDSA] [Wire SenderKeyMessagePB] [Wire SenderKeyDistributionMessagePB]
variable (ch : SenderChain) (n : Nat)

lemma stateAt_public : (ch.stateAt n).signingKeyPublic = some ch.signingKey.publicKey := by
  change (deserializePublicKey ch.signingKey.publicKey.serialize).toOption = _
  rw [deserializePublicKey_serialize]
  rfl

lemma stateAt_private : (ch.stateAt n).signingKeyPrivate = some ch.signingKey.privateKey := by
  have hlen : ¬ ch.signingKey.privateKey.data.length = 0 := by
    rw [ch.signingKey.privateKey.length_data]
    decide
  change (if ch.signingKey.privateKey.data.length = 0 then none
    else (deserializePrivateKey ch.signingKey.privateKey.data).toOption) = _
  rw [if_neg hlen, deserializePrivateKey_data]
  rfl

lemma length_chainKeyAt : (chainKeyAt ch.seed n).length = 32 := by
  cases n with
  | zero => exact ch.length_seed
  | succ n => exact hmacSHA256_length _ _

lemma copyBytes_chainKeyAt : copyBytes (chainKeyAt ch.seed n) = some (chainKeyAt ch.seed n) := by
  rw [copyBytes, if_neg]
  rw [ch.length_chainKeyAt]
  decide

end

end SenderChain

variable [Wire SenderKeyRecord] [Hash] [Aes] [XEdDSA] [Wire SenderKeyMessagePB]
  [Wire SenderKeyDistributionMessagePB]

/-- The runs of a sender: a chain is created, and then messages are encrypted and announcements made; the
indices are the store, the encrypted messages with their plaintexts and the announcements, in order. -/
inductive Sends (sender : ProtocolAddress) (distributionID : DistributionID) :
    SenderKeyStore → List (Bytes × SenderKeyMessage) → List SenderKeyDistributionMessage → Prop
  | created {f rng store store' skdm} : store ⟨sender, distributionID⟩ = none →
      createSenderKeyDistributionMessage f sender distributionID rng store = (.ok skdm, store') →
      Sends sender distributionID store' [] [skdm]
  | encrypted {f rng store store' msgs skdms plaintext m} :
      Sends sender distributionID store msgs skdms →
      encrypt f sender distributionID plaintext rng store = (.ok m, store') →
      Sends sender distributionID store' (msgs ++ [(plaintext, m)]) skdms
  | announced {f rng store store' msgs skdms skdm} : Sends sender distributionID store msgs skdms →
      createSenderKeyDistributionMessage f sender distributionID rng store = (.ok skdm, store') →
      Sends sender distributionID store' msgs (skdms ++ [skdm])
  | failed {f rng store store' msgs skdms plaintext e} : Sends sender distributionID store msgs skdms →
      encrypt f sender distributionID plaintext rng store = (.error e, store') →
      Sends sender distributionID store' msgs skdms

variable {sender : ProtocolAddress} {distributionID : DistributionID} {store store' : SenderKeyStore}
  {msgs : List (Bytes × SenderKeyMessage)} {skdms : List SenderKeyDistributionMessage}

/-- What a sender has stored and sent: the messages of one chain in order, and announcements of it. -/
structure OnChain (ch : SenderChain) (sender : ProtocolAddress) (distributionID : DistributionID)
    (store : SenderKeyStore) (msgs : List (Bytes × SenderKeyMessage))
    (skdms : List SenderKeyDistributionMessage) : Prop where
  bound : msgs.length < 2 ^ 32
  stored : storedRecord store ⟨sender, distributionID⟩ = some ⟨[ch.stateAt msgs.length]⟩
  messages : ∀ k plaintext m, msgs[k]? = some (plaintext, m) → ch.Message distributionID k plaintext m
  announcements : ∀ skdm ∈ skdms, ∃ i ≤ msgs.length, skdm = ch.announcement distributionID i

lemma onChain_created {f : Faults} {rng : Readers} {skdm : SenderKeyDistributionMessage}
    (hnone : store ⟨sender, distributionID⟩ = none)
    (h : createSenderKeyDistributionMessage f sender distributionID rng store = (.ok skdm, store')) :
    ∃ ch, OnChain ch sender distributionID store' [] [skdm] := by
  obtain ⟨record, state, chainKey, pub, hstate, hchain, hpub, hskdm, hcase⟩ := create_ok h
  rcases hcase with ⟨_, hstored⟩ | ⟨_, hstore, chainID, seed, signingKey, hseed, hvalid, rfl⟩
  · rw [storedRecord, hnone] at hstored
    cases hstored
  · let ch : SenderChain := ⟨chainID, seed, signingKey, hseed, hvalid⟩
    have hzero : ch.stateAt 0 = state := Option.some.inj hstate
    refine ⟨ch, by decide, ?_, fun k _ _ hk => (by cases hk), ?_⟩
    · rw [hstore, storedRecord_withRecord]
      rfl
    · intro skdm' hskdm'
      refine ⟨0, le_rfl, ?_⟩
      rw [List.mem_singleton.mp hskdm', hskdm]
      subst hzero
      rw [ch.stateAt_public] at hpub
      cases hpub
      cases hchain
      rw [SenderChain.announcement, ← ch.copyBytes_chainKeyAt]
      rfl

lemma OnChain.announced {ch : SenderChain} (hon : OnChain ch sender distributionID store msgs skdms)
    {f : Faults} {rng : Readers} {skdm : SenderKeyDistributionMessage}
    (h : createSenderKeyDistributionMessage f sender distributionID rng store = (.ok skdm, store')) :
    OnChain ch sender distributionID store' msgs (skdms ++ [skdm]) := by
  obtain ⟨record, state, chainKey, pub, hstate, hchain, hpub, hskdm, hcase⟩ := create_ok h
  have hstored := hon.stored
  rcases hcase with ⟨rfl, hrecord⟩ | ⟨hnone, _⟩
  · rw [hstored] at hrecord
    cases hrecord
    cases hstate
    cases hchain
    rw [ch.stateAt_public] at hpub
    cases hpub
    refine ⟨hon.bound, hstored, hon.messages, fun skdm' hmem => ?_⟩
    rcases List.mem_append.mp hmem with hmem | hmem
    · exact hon.announcements skdm' hmem
    · refine ⟨msgs.length, le_rfl, ?_⟩
      rw [List.mem_singleton.mp hmem, hskdm, SenderChain.announcement, ← ch.copyBytes_chainKeyAt]
      rfl
  · rw [storedRecord, hnone] at hstored
    cases hstored

lemma OnChain.encrypted {ch : SenderChain} (hon : OnChain ch sender distributionID store msgs skdms)
    {f : Faults} {rng : Reader} {plaintext : Bytes} {m : SenderKeyMessage}
    (h : encrypt f sender distributionID plaintext rng store = (.ok m, store')) :
    OnChain ch sender distributionID store' (msgs ++ [(plaintext, m)]) skdms := by
  obtain ⟨state, rest, chainKey, next, signingKey, ciphertext, hstored, hchain, hkey, hct, hm, hnext, rfl⟩ :=
    encrypt_ok h
  rw [hon.stored] at hstored
  cases hstored
  cases hchain
  rw [ch.stateAt_private] at hkey
  cases hkey
  have hbound : msgs.length + 1 < 2 ^ 32 := by
    by_contra hlast
    have heq : msgs.length = 2 ^ 32 - 1 := by
      have hlt := hon.bound
      omega
    rw [next_last (by rw [chainAt, heq]; rfl)] at hnext
    cases hnext
  rw [next_chainAt _ hbound] at hnext
  cases hnext
  have hlen : (msgs ++ [(plaintext, m)]).length = msgs.length + 1 := by
    rw [List.length_append, List.length_singleton]
  refine ⟨by rw [hlen]; exact hbound, ?_, ?_, ?_⟩
  · rw [storedRecord_withRecord, hlen]
    rfl
  · intro k pt m' hget
    by_cases hk : k < msgs.length
    · rw [List.getElem?_append_left hk] at hget
      exact hon.messages k pt m' hget
    · obtain rfl : k = msgs.length := by
        have hlt := (List.getElem?_eq_some_iff.mp hget).1
        omega
      rw [List.getElem?_concat_length] at hget
      cases hget
      exact ⟨hbound, ciphertext, rng, hct, hm⟩
  · intro skdm hskdm
    obtain ⟨i, hi, hann⟩ := hon.announcements skdm hskdm
    exact ⟨i, by omega, hann⟩

lemma OnChain.encrypt_run {ch : SenderChain} (hon : OnChain ch sender distributionID store msgs skdms)
    {f : Faults} (hload : f.load = false) (hstore : f.store = false) {rng : Reader} {random : Bytes}
    (hrng : rng.read 64 = some random) (hbound : msgs.length + 1 < 2 ^ 32) (plaintext : Bytes) :
    ∃ m store', encrypt f sender distributionID plaintext rng store = (.ok m, store') := by
  obtain ⟨ciphertext, _, hrun⟩ := encrypt_eq plaintext rng hload hon.stored rfl
    (ch.stateAt_private msgs.length)
  have hnew : ∃ m, newSenderKeyMessage distributionID (ch.stateAt msgs.length).chainID
      (chainAt ch.seed msgs.length).iteration (some ciphertext) rng ch.signingKey.privateKey = .ok m := by
    rw [newSenderKeyMessage, calculateSignature, readKeyBytes, hrng]
    exact ⟨_, rfl⟩
  obtain ⟨m, hm⟩ := hnew
  refine ⟨m, withRecord store ⟨sender, distributionID⟩ ⟨[(ch.stateAt msgs.length).setSenderChainKey
    (chainAt ch.seed (msgs.length + 1))]⟩, ?_⟩
  rw [hrun, hm]
  change (Op.lift (chainAt ch.seed msgs.length).next >>= _) store = _
  rw [next_chainAt _ hbound]
  exact Op.bind_run_ok (storeSenderKeyRecord_run hstore)

lemma Sends.onChain (h : Sends sender distributionID store msgs skdms) :
    ∃ ch, OnChain ch sender distributionID store msgs skdms := by
  induction h with
  | created hnone hrun => exact onChain_created hnone hrun
  | encrypted _ hrun ih => exact ih.imp fun _ hon => hon.encrypted hrun
  | announced _ hrun ih => exact ih.imp fun _ hon => hon.announced hrun
  | failed _ hrun ih =>
    rw [encrypt_atomic _ _ _ _ _ _ _ _ hrun]
    exact ih

/-! ## The receiver -/

omit [X25519] [Hash] [Aes] [XEdDSA] [Wire SenderKeyMessagePB] [Wire SenderKeyDistributionMessagePB] in
def heldState (store : SenderKeyStore) (id : SenderKeyID) (chainID : UInt32) : Option SenderKeyState :=
  (storedRecord store id).bind fun record => record.senderKeyStateForChainID chainID

/-- The receiver holds a state for a chain id and a signing key. -/
def Holds (store : SenderKeyStore) (id : SenderKeyID) (chainID : UInt32) (pub : PublicKey) : Prop :=
  ∃ s, heldState store id chainID = some s ∧ s.signingKeyPublic = some pub

def receiverIteration (store : SenderKeyStore) (id : SenderKeyID) (chainID : UInt32) : Nat :=
  (((heldState store id chainID).bind (·.senderChainKey)).map (·.iteration.toNat)).getD 0

/-- The runs of a receiver after an announcement at iteration `i`: messages of the sender are decrypted,
any decryptions fail, and announcements are processed after which the state is still held. The indices are
the store, the iterations decrypted and the iterations whose keys were skipped, in order. -/
inductive Receives (sender : ProtocolAddress) (skdm : SenderKeyDistributionMessage)
    (msgs : List (Bytes × SenderKeyMessage)) : SenderKeyStore → List Nat → List Nat → Prop
  | announced {f store store'} :
      (∀ record, storedRecord store ⟨sender, skdm.distributionID⟩ = some record →
        ∀ s ∈ record.states, ¬ (s.chainID = skdm.chainID ∧ s.signingKeyPublic = some skdm.signingKey)) →
      processSenderKeyDistributionMessage f sender skdm store = (.ok (), store') →
      Receives sender skdm msgs store' [] []
  | decrypted {f store store' used skipped k plaintext m out} : Receives sender skdm msgs store used skipped →
      msgs[k]? = some (plaintext, m) → skdm.iteration.toNat ≤ k →
      decrypt f sender m.serialized store = (.ok out, store') →
      Receives sender skdm msgs store' (k :: used)
        (skipped ++ List.range' (receiverIteration store ⟨sender, skdm.distributionID⟩ skdm.chainID)
          (k - receiverIteration store ⟨sender, skdm.distributionID⟩ skdm.chainID))
  | failed {f store store' used skipped sender' bytes e} : Receives sender skdm msgs store used skipped →
      decrypt f sender' bytes store = (.error e, store') → Receives sender skdm msgs store' used skipped
  | processed {f store store' used skipped sender' skdm' r} : Receives sender skdm msgs store used skipped →
      processSenderKeyDistributionMessage f sender' skdm' store = (r, store') →
      Holds store' ⟨sender, skdm.distributionID⟩ skdm.chainID skdm.signingKey →
      Receives sender skdm msgs store' used skipped

structure Tracking (ch : SenderChain) (id : SenderKeyID) (i : Nat) (store : SenderKeyStore)
    (w : Window) : Prop where
  state : ∃ s, heldState store id ch.chainID = some s ∧
    s.signingKeyPublic = some ch.signingKey.publicKey ∧ s.messageVersion = 3 ∧ Tracks ch.seed w s
  sound : w.Sound maxMessageKeys i

section
omit [Aes] [XEdDSA] [Wire SenderKeyMessagePB] [Wire SenderKeyDistributionMessagePB]
variable {ch : SenderChain} {id : SenderKeyID} {i : Nat} {w : Window}

lemma Tracking.receiverIteration (h : Tracking ch id i store w) :
    receiverIteration store id ch.chainID = w.next := by
  obtain ⟨s, hheld, _, _, htracks⟩ := h.state
  rw [Groups.receiverIteration, hheld, Option.bind_some, htracks.chain]
  exact toNat_toUInt32 htracks.bound

end

section
omit [X25519] [Wire SenderKeyDistributionMessagePB]

lemma decrypt_eq {f : Faults} (hf : f.load = false) {bytes : Bytes} {m : SenderKeyMessage}
    {record : SenderKeyRecord} {s : SenderKeyState} {pub : PublicKey}
    (hparse : deserializeSenderKeyMessage bytes = .ok m)
    (hrecord : storedRecord store ⟨sender, m.distributionID⟩ = some record)
    (hstate : record.senderKeyStateForChainID m.chainID = some s)
    (hversion : m.messageVersion.toUInt32 = s.messageVersion) (hpub : s.signingKeyPublic = some pub)
    (hverify : m.verifySignature pub = true) : decrypt f sender bytes store =
      (Op.lift (senderKeyForIteration s m.iteration) >>= fun r =>
        Op.lift ((decryptCBC m.ciphertext r.1.cipherKey r.1.iv).mapError decryptionError) >>= fun plaintext =>
          storeSenderKeyRecord f ⟨sender, m.distributionID⟩ (record.setForChainID m.chainID r.2) >>=
            fun _ => pure plaintext) store := by
  rw [decrypt, hparse, mapError_ok]
  change (loadSenderKeyRecord f ⟨sender, m.distributionID⟩ >>= _) store = _
  rw [Op.bind_run_ok (loadSenderKeyRecord_some hf hrecord)]
  change (Op.ofOption (GroupErr.unknownChainID m.chainID) (record.senderKeyStateForChainID m.chainID) >>= _)
    store = _
  rw [hstate]
  change (if m.messageVersion.toUInt32 ≠ s.messageVersion then _ else _ : GroupOp Bytes) store = _
  rw [if_neg (not_not.mpr hversion), hpub]
  change (if ¬ m.verifySignature pub then _ else _ : GroupOp Bytes) store = _
  rw [if_neg (not_not.mpr hverify)]

end

section
omit [Wire SenderKeyDistributionMessagePB]
variable {ch : SenderChain} {i : Nat} {w : Window} {f : Faults} {k : Nat} {plaintext : Bytes}
  {m : SenderKeyMessage}

omit [Wire SenderKeyRecord] in
lemma SenderChain.Message.fields (h : ch.Message distributionID k plaintext m) :
    m.messageVersion = 3 ∧ m.distributionID = distributionID ∧ m.chainID = ch.chainID ∧
      m.iteration = k.toUInt32 ∧ encryptCBC plaintext (messageKeyAt ch.seed k).cipherKey
        (messageKeyAt ch.seed k).iv = .ok m.ciphertext := by
  obtain ⟨_, ciphertext, rng, hct, hm⟩ := h
  obtain ⟨_, _, rfl⟩ := newSenderKeyMessage_inv hm
  exact ⟨rfl, rfl, rfl, rfl, hct⟩

lemma Tracking.decrypt_eq (hsign : XEdDSA.Complete) (h : Tracking ch ⟨sender, distributionID⟩ i store w)
    (hm : ch.Message distributionID k plaintext m) (hf : f.load = false) :
    ∃ record s, storedRecord store ⟨sender, distributionID⟩ = some record ∧
      record.senderKeyStateForChainID ch.chainID = some s ∧
      s.signingKeyPublic = some ch.signingKey.publicKey ∧ s.messageVersion = 3 ∧ Tracks ch.seed w s ∧
      decrypt f sender m.serialized store = (Op.lift (senderKeyForIteration s k.toUInt32) >>= fun r =>
          Op.lift ((decryptCBC m.ciphertext r.1.cipherKey r.1.iv).mapError decryptionError) >>=
            fun plaintext => storeSenderKeyRecord f ⟨sender, distributionID⟩
              (record.setForChainID ch.chainID r.2) >>= fun _ => pure plaintext) store := by
  obtain ⟨s, hheld, hpub, hversion, htracks⟩ := h.state
  obtain ⟨record, hrecord, hstate⟩ := Option.bind_eq_some_iff.mp hheld
  obtain ⟨hmv, rfl, hid, hit, _⟩ := hm.fields
  obtain ⟨_, ciphertext, rng, _, hnew⟩ := hm
  refine ⟨record, s, hrecord, hstate, hpub, hversion, htracks, ?_⟩
  rw [Groups.decrypt_eq hf (deserializeSenderKeyMessage_new hnew) hrecord (by rw [hid]; exact hstate)
    (by rw [hmv, hversion]; rfl) hpub (verifySignature_new hsign ch.valid hnew), hit, hid]

lemma Tracking.decrypt_duplicate (hsign : XEdDSA.Complete)
    (h : Tracking ch ⟨sender, distributionID⟩ i store w) (hm : ch.Message distributionID k plaintext m)
    (hf : f.load = false) (huse : w.use maxMessageKeys k = none) : decrypt f sender m.serialized store =
      (.error (.duplicateMessage k.toUInt32 w.next.toUInt32), store) := by
  obtain ⟨record, s, _, _, _, _, htracks, hrun⟩ := h.decrypt_eq hsign hm hf
  cases htracks.resolves h.sound hm.1 with
  | used w' s' huse' => rw [huse] at huse'; cases huse'
  | duplicate _ hresolve =>
    rw [hrun, hresolve]
    rfl
  | tooFar hfar _ =>
    rw [Window.use, if_neg (by omega)] at huse
    cases huse

omit [Aes] [XEdDSA] [Wire SenderKeyMessagePB] in
lemma Tracking.stored {record : SenderKeyRecord} {s s' : SenderKeyState} {w' : Window}
    {id : SenderKeyID} (h : w'.Sound maxMessageKeys i)
    (hstate : record.senderKeyStateForChainID ch.chainID = some s)
    (hpub : s.signingKeyPublic = some ch.signingKey.publicKey) (hversion : s.messageVersion = 3)
    (htracks : Tracks ch.seed w' s') (hid : s'.chainID = s.chainID) (hv : s'.version = s.version)
    (hsigning : s'.senderSigningKey = s.senderSigningKey) :
    Tracking ch id i (withRecord store id (record.setForChainID ch.chainID s')) w' := by
  refine ⟨⟨s', ?_, ?_, ?_, htracks⟩, h⟩
  · rw [heldState, storedRecord_withRecord, Option.bind_some]
    exact SenderKeyRecord.senderKeyStateForChainID_set hstate
      (hid.trans (SenderKeyRecord.chainID_of_find hstate))
  · rw [SenderKeyState.signingKeyPublic, hsigning]
    exact hpub
  · rw [SenderKeyState.messageVersion, hv]
    exact hversion

lemma Tracking.decrypt_used (haes : Aes.Inverse) (hsign : XEdDSA.Complete)
    (h : Tracking ch ⟨sender, distributionID⟩ i store w) (hm : ch.Message distributionID k plaintext m)
    (hload : f.load = false) (hstore : f.store = false) {w' : Window}
    (huse : w.use maxMessageKeys k = some w') (hnear : k ≤ w.next + 25000) :
    ∃ store', decrypt f sender m.serialized store = (.ok plaintext, store') ∧
      Tracking ch ⟨sender, distributionID⟩ i store' w' := by
  obtain ⟨record, s, _, hstate, hpub, hversion, htracks, hrun⟩ := h.decrypt_eq hsign hm hload
  cases htracks.resolves h.sound hm.1 with
  | used w'' s' huse' _ hresolve htracks' hid hv hsigning =>
    rw [huse] at huse'
    cases huse'
    obtain ⟨_, _, _, _, hct⟩ := hm.fields
    refine ⟨withRecord store ⟨sender, distributionID⟩ (record.setForChainID ch.chainID s'), ?_,
      .stored (h.sound.use huse) hstate hpub hversion htracks' hid hv hsigning⟩
    rw [hrun, hresolve]
    change (Op.lift ((decryptCBC m.ciphertext (messageKeyAt ch.seed k).cipherKey
      (messageKeyAt ch.seed k).iv).mapError decryptionError) >>= _) store = _
    rw [decryptCBC_encryptCBC haes hct]
    exact Op.bind_run_ok (storeSenderKeyRecord_run hstore)
  | duplicate huse' _ => rw [huse] at huse'; cases huse'
  | tooFar hfar _ => exact absurd hnear (not_le.mpr hfar)

lemma Tracking.of_decrypt (h : Tracking ch ⟨sender, distributionID⟩ i store w)
    (hm : ch.Message distributionID k plaintext m) {out : Bytes}
    (hrun : decrypt f sender m.serialized store = (.ok out, store')) :
    ∃ w', w.use maxMessageKeys k = some w' ∧ Tracking ch ⟨sender, distributionID⟩ i store' w' := by
  obtain ⟨s, hheld, hpub, hversion, htracks⟩ := h.state
  obtain ⟨record, hrecord, hstate⟩ := Option.bind_eq_some_iff.mp hheld
  obtain ⟨skm, record', s1, next, _, messageKey, hparse, hrecord', hstate', _, _, hmk, _, rfl⟩ :=
    decrypt_ok hrun
  obtain ⟨_, hdist, hid, hit, _⟩ := hm.fields
  obtain ⟨hbound, ciphertext, rng, _, hnew⟩ := hm
  rw [deserializeSenderKeyMessage_new hnew] at hparse
  cases hparse
  rw [hdist] at hrecord' ⊢
  rw [hrecord] at hrecord'
  cases hrecord'
  rw [hid] at hstate' ⊢
  rw [hstate] at hstate'
  cases hstate'
  rw [hit] at hmk
  cases htracks.resolves h.sound hbound with
  | used w' s' huse _ hresolve htracks' hid' hv hsigning =>
    rw [hresolve] at hmk
    cases hmk
    exact ⟨w', huse, .stored (h.sound.use huse) hstate hpub hversion htracks' hid' hv hsigning⟩
  | duplicate _ hresolve => rw [hresolve] at hmk; cases hmk
  | tooFar _ hresolve => rw [hresolve] at hmk; cases hmk

end

section
variable {ch : SenderChain} {i : Nat} {f : Faults}
omit [Aes] [XEdDSA] [Wire SenderKeyMessagePB]

lemma tracking_announced (hi : i < 2 ^ 32)
    (hnew : ∀ record, storedRecord store ⟨sender, distributionID⟩ = some record →
      ∀ s ∈ record.states, ¬ (s.chainID = ch.chainID ∧ s.signingKeyPublic = some ch.signingKey.publicKey))
    (hrun : processSenderKeyDistributionMessage f sender (ch.announcement distributionID i) store
      = (.ok (), store')) : Tracking ch ⟨sender, distributionID⟩ i store' (.start i) := by
  obtain ⟨record, hrecord, rfl⟩ := processSenderKeyDistributionMessage_ok hrun
  have hnone : record.states.find? (SenderKeyRecord.isFor ch.chainID ch.signingKey.publicKey) = none := by
    rw [List.find?_eq_none]
    intro s hs hfor
    rcases hrecord with hrecord | ⟨_, rfl⟩
    · exact hnew record hrecord s hs (SenderKeyRecord.isFor_iff.mp hfor)
    · exact absurd hs List.not_mem_nil
  refine ⟨⟨newSenderKeyState 3 ch.chainID i.toUInt32 (chainKeyAt ch.seed i) ch.signingKey.publicKey none,
    ?_, (SenderKeyRecord.isFor_iff.mp SenderKeyRecord.newSenderKeyState_for).2, rfl, ⟨rfl, rfl, hi⟩⟩,
    Window.sound_start _ _⟩
  change (storedRecord (withRecord store ⟨sender, distributionID⟩ _) ⟨sender, distributionID⟩).bind _ = _
  rw [storedRecord_withRecord, Option.bind_some]
  exact SenderKeyRecord.senderKeyStateForChainID_add.trans
    (congrArg some (SenderKeyRecord.addedState_new hnone))

omit [Wire SenderKeyDistributionMessagePB] in
lemma Tracking.processed {id : SenderKeyID} {w : Window} (h : Tracking ch id i store w)
    {sender' : ProtocolAddress} {skdm : SenderKeyDistributionMessage} {r : Except GroupErr Unit}
    (hrun : processSenderKeyDistributionMessage f sender' skdm store = (r, store'))
    (hheld' : Holds store' id ch.chainID ch.signingKey.publicKey) : Tracking ch id i store' w := by
  cases r with
  | error e => rwa [processSenderKeyDistributionMessage_atomic _ _ _ _ _ _ hrun]
  | ok u =>
    obtain ⟨record', hrecord', rfl⟩ := processSenderKeyDistributionMessage_ok hrun
    obtain ⟨s, hheld, hpub, hversion, htracks⟩ := h.state
    obtain ⟨s', hheld', hpub'⟩ := hheld'
    by_cases hid : id = ⟨sender', skdm.distributionID⟩
    · subst hid
      obtain ⟨record, hrecord, hstate⟩ := Option.bind_eq_some_iff.mp hheld
      obtain rfl : record' = record := by
        rcases hrecord' with hrecord' | ⟨hnone, _⟩
        · rw [hrecord] at hrecord'
          exact (Option.some.inj hrecord').symm
        · rw [storedRecord, hnone] at hrecord
          cases hrecord
      refine ⟨⟨s', hheld', hpub', ?_⟩, h.sound⟩
      rw [heldState, storedRecord_withRecord, Option.bind_some] at hheld'
      rw [SenderKeyRecord.held_add hstate hpub hheld' hpub']
      exact ⟨hversion, htracks⟩
    · refine ⟨⟨s, ?_, hpub, hversion, htracks⟩, h.sound⟩
      rw [heldState, storedRecord_withRecord_ne hid]
      exact hheld

end

lemma Receives.tracks {ch : SenderChain} {i : Nat} (hi : i < 2 ^ 32)
    (hmsgs : ∀ k plaintext m, msgs[k]? = some (plaintext, m) → ch.Message distributionID k plaintext m)
    {used skipped : List Nat} (h : Receives sender (ch.announcement distributionID i) msgs store used skipped) :
    ∃ w, Tracking ch ⟨sender, distributionID⟩ i store w ∧ w.used = used ∧ w.skipped = skipped := by
  induction h with
  | announced hnew hrun => exact ⟨.start i, tracking_announced hi hnew hrun, rfl, rfl⟩
  | decrypted _ hget _ hrun ih =>
    obtain ⟨w, htrack, rfl, rfl⟩ := ih
    obtain ⟨w', huse, htrack'⟩ := htrack.of_decrypt (hmsgs _ _ _ hget) hrun
    refine ⟨w', htrack', Window.use_used huse, ?_⟩
    rw [Window.use_skipped huse, ← htrack.receiverIteration]
    rfl
  | failed _ hrun ih => rwa [decrypt_atomic _ _ _ _ _ _ hrun]
  | processed _ hrun hheld ih =>
    obtain ⟨w, htrack, hused, hskipped⟩ := ih
    exact ⟨w, htrack.processed hrun hheld, hused, hskipped⟩

/-- Group delivery, exactly once, in any order. -/
theorem group_delivery (haes : Aes.Inverse) (hsign : XEdDSA.Complete) {senderStore : SenderKeyStore}
    (hsends : Sends sender distributionID senderStore msgs skdms) {skdm : SenderKeyDistributionMessage}
    (hskdm : skdm ∈ skdms) {receiver : ProtocolAddress} {used skipped : List Nat}
    (hreceives : Receives receiver skdm msgs store used skipped) {f : Faults} (hload : f.load = false)
    (hstore : f.store = false) {k : Nat} {plaintext : Bytes} {m : SenderKeyMessage}
    (hget : msgs[k]? = some (plaintext, m)) (hk : skdm.iteration.toNat ≤ k) :
    (k ∉ used → k ≤ receiverIteration store ⟨receiver, skdm.distributionID⟩ skdm.chainID + 25000 →
      (k < receiverIteration store ⟨receiver, skdm.distributionID⟩ skdm.chainID →
        (skipped.filter (k < ·)).length < 2000) →
      ∃ store', decrypt f receiver m.serialized store = (.ok plaintext, store')) ∧
    (k ∈ used → ∃ current, decrypt f receiver m.serialized store =
      (.error (.duplicateMessage k.toUInt32 current), store)) := by
  obtain ⟨ch, hon⟩ := hsends.onChain
  obtain ⟨i, hi, rfl⟩ := hon.announcements skdm hskdm
  have hbound : i < 2 ^ 32 := lt_of_le_of_lt hi hon.bound
  have hstart : i ≤ k := by rwa [show (ch.announcement distributionID i).iteration.toNat = i from
    toNat_toUInt32 hbound] at hk
  obtain ⟨w, htrack, rfl, rfl⟩ := hreceives.tracks hbound hon.messages
  have hiter : receiverIteration store ⟨receiver, distributionID⟩ ch.chainID = w.next :=
    htrack.receiverIteration
  change (_ → k ≤ receiverIteration store ⟨receiver, distributionID⟩ ch.chainID + 25000 →
    (k < receiverIteration store ⟨receiver, distributionID⟩ ch.chainID → _) → _) ∧ _
  rw [hiter]
  refine ⟨fun hunused hnear hsince => ?_, fun hused => ?_⟩
  · obtain ⟨w', huse⟩ := htrack.sound.use_of_unused hstart hunused hsince
    obtain ⟨store', hrun, _⟩ := htrack.decrypt_used haes hsign (hon.messages k plaintext m hget) hload
      hstore huse hnear
    exact ⟨store', hrun⟩
  · exact ⟨_, htrack.decrypt_duplicate hsign (hon.messages k plaintext m hget) hload
      (htrack.sound.use_of_used hused)⟩

end

deriving instance Countable for SenderChainKey
deriving instance Countable for SigningKey
deriving instance Countable for CachedKey
deriving instance Countable for SenderKeyState
deriving instance Countable for SenderKeyRecord

def anAddress : ProtocolAddress := ⟨"alice", ⟨1⟩⟩

def aDistribution : DistributionID := ⟨zeros 16, length_zeros 16⟩

def noFaults : Faults := ⟨false, false⟩

/-- The first message of a sender is decrypted by a receiver of its announcement. -/
theorem group_delivery_first : ∃ (m : SenderKeyMessage) (store store' : SenderKeyStore),
    @decrypt (unaryWire _) zeroHash plainAes zeroXEdDSA (unaryWire _) noFaults anAddress m.serialized store
      = (.ok [1, 2, 3], store') := by
  let _ := zeroHash
  let _ := oneX25519
  let _ := plainAes
  let _ := zeroXEdDSA
  let _ := unaryWire SenderKeyRecord
  let _ := unaryWire SenderKeyMessagePB
  let _ := unaryWire SenderKeyDistributionMessagePB
  -- the sender creates a chain and encrypts
  obtain ⟨skdm, store1, hcreate, hzero⟩ : ∃ skdm store1, createSenderKeyDistributionMessage noFaults
      anAddress aDistribution (fun _ => zeroReader) (fun _ => none) = (.ok skdm, store1) ∧
        skdm.iteration.toNat = 0 := ⟨_, _, rfl, rfl⟩
  have hcreated := Sends.created rfl hcreate
  obtain ⟨ch, hon⟩ := hcreated.onChain
  obtain ⟨m, store2, hencrypt⟩ := @OnChain.encrypt_run _ _ _ _ _ _ _ _ _ _ _ _ _ hon noFaults rfl rfl
    zeroReader (zeros 64) rfl (by decide) [1, 2, 3]
  have hsends := hcreated.encrypted hencrypt
  -- the receiver processes the announcement
  obtain ⟨store3, hprocess⟩ : ∃ store3, processSenderKeyDistributionMessage noFaults anAddress skdm
      (fun _ => none) = (.ok (), store3) := ⟨_, rfl⟩
  have hreceives : Receives anAddress skdm [([1, 2, 3], m)] store3 [] [] :=
    .announced (fun record h => by cases h) hprocess
  obtain ⟨hfirst, _⟩ := group_delivery plainAes_inverse (fun _ _ _ _ _ => rfl) hsends
    (List.mem_singleton_self skdm) hreceives (f := noFaults) rfl rfl (k := 0) rfl hzero.le
  obtain ⟨store4, hdecrypt⟩ := hfirst List.not_mem_nil (Nat.zero_le _) (fun _ => by decide)
  exact ⟨m, store3, store4, hdecrypt⟩

end LibSignal.Groups
