import LibSignal.Session.Delivery

/-!
# The two sides of a handshake

A recipient whose key pairs are behind the keys of a bundle arrives at the initial keys of the initiator
(`Mirrored.recipient`).
-/

namespace LibSignal.Session
open Chunked (Bytes)
open Crypto Curve Lib Proto Protocol Ratchet
open Spqr (StateCodec Net Setup Joint switchDirection)

variable [X25519]

lemma agree_comm (hX : X25519.Commutes) {k k' : KeyPair} (hk : k.Valid) (hk' : k'.Valid) (i : Nat) :
    agree i k.privateKey k'.publicKey = agree i k'.privateKey k.publicKey := by
  obtain ⟨s, hs, hs'⟩ := hX.agreement k k' hk hk'
  rw [agree, agree, hs, hs']

variable [Kem.Kyber1024]

structure Mirrored (p : AliceParams) (q : BobParams) : Prop where
  theirIdentity : p.theirIdentity = q.ourIdentity.publicKey
  signedPre : p.theirSignedPre = q.ourSignedPre.publicKey
  oneTime : p.theirOneTime = q.ourOneTime.map (·.publicKey)
  kyber : p.theirKyber = q.ourKyber.publicKey
  ourIdentity : q.theirIdentity = p.ourIdentity.publicKey
  base : q.theirBaseKey = p.ourBase.publicKey
  initiator : p.ourIdentity.Valid ∧ p.ourBase.Valid
  recipient : q.ourIdentity.Valid ∧ q.ourSignedPre.Valid ∧ (∀ k ∈ q.ourOneTime, k.Valid) ∧ q.ourKyber.Valid

variable {p : AliceParams} {q : BobParams}

lemma Mirrored.agreements_eq (h : Mirrored p q) (hX : X25519.Commutes) : q.agreements = p.agreements := by
  obtain ⟨hidentity, hbase⟩ := h.initiator
  obtain ⟨hidentity', hsigned, hone, _⟩ := h.recipient
  rw [BobParams.agreements, AliceParams.agreements, h.theirIdentity, h.signedPre, h.oneTime, h.ourIdentity, h.base,
    agree_comm hX hidentity hsigned, agree_comm hX hbase hidentity', agree_comm hX hbase hsigned]
  cases hq : q.ourOneTime with
  | none => rfl
  | some k =>
    simp only [Option.map_some]
    rw [agree_comm hX hbase (hone k hq)]

variable [Hash] [StateCodec] {rng : Reader} {coins : Bytes} {a b : SessionState}

lemma Mirrored.recipient_ok [EdwardsPoints] (h : Mirrored p q) (hX : X25519.Commutes) (hkem : Kem.Kyber1024.Correct)
    (ha : initializeAliceSession rng coins p = .ok a) {ss : Bytes}
    (hct : p.theirKyber.encapsulate coins = .ok (ss, q.kyberCipher)) (hbase : q.theirBaseKey.isCanonical = true) :
    ∃ initial ratchet root chain, initial.chainKey.index = 0 ∧ generateKeyPair rng = .ok ratchet ∧
      initial.rootKey.createChain p.theirSignedPre ratchet.privateKey = .ok (root, chain) ∧
      a = aliceState p initial ratchet root chain q.kyberCipher ∧ initializeBobSession q = .ok (bobState q initial) := by
  obtain ⟨dh1, dh2, dh3, dh4, ss', ct, initial, ratchet, root, chain, hdh, hkyber, hinitial, hratchet, hchain, rfl⟩ :=
    initializeAliceSession_inv ha
  cases hct.symm.trans hkyber
  obtain ⟨ss', ct, henc, hlen, hdec⟩ := Kem.decapsulate_encapsulate hkem h.recipient.2.2.2 coins
  rw [h.kyber] at hkyber
  cases hkyber.symm.trans henc
  refine ⟨initial, ratchet, root, chain, by rw [deriveInitialKeys_inv hinitial]; rfl, hratchet, hchain, rfl, ?_⟩
  rw [initializeBobSession, if_neg hlen, if_neg (by rw [hbase]; decide), h.agreements_eq hX]
  simp only [hdh, hdec, hinitial, ok_bind, mapError_ok]
  rfl

def ratchetSetup (initial : InitialKeys) (ours theirs : PublicKey) : Setup where
  authKey := initial.pqrSeed
  params := ⟨if ours.equal theirs then 0xFFFFFFFF else maxForwardJumps, maxMessageKeys.toUInt32⟩
  minVersion := fun _ => Spqr.v1

omit [X25519] [Kem.Kyber1024] [Hash] [StateCodec] in
lemma ratchetSetup_comm (initial : InitialKeys) (ours theirs : PublicKey) :
    ratchetSetup initial theirs ours = ratchetSetup initial ours theirs := by
  have hcomm : theirs.equal ours = ours.equal theirs :=
    Bool.eq_iff_iff.mpr (PublicKey.equal_iff.trans (eq_comm.trans PublicKey.equal_iff.symm))
  rw [ratchetSetup, hcomm, ratchetSetup]

variable [IncrementalKem] [Aes] [Wire SignalMessagePB]

lemma Mirrored.talking (h : Mirrored p q) {initial : InitialKeys} {ratchet : KeyPair} {root : RootKey}
    {chain : ChainKey} (hindex : initial.chainKey.index = 0) (hratchet : generateKeyPair rng = .ok ratchet)
    (hchain : initial.rootKey.createChain p.theirSignedPre ratchet.privateKey = .ok (root, chain))
    (hne : [p.theirSignedPre, ratchet.publicKey].Nodup) {ct : Bytes} {pre : Option PendingPreKey}
    {kyber : Option PendingKyberPreKey} {i j i' j' : UInt32} :
    Talking (fun | .a2b => p.ourIdentity.publicKey | .b2a => p.theirIdentity)
      (ratchetSetup initial p.ourIdentity.publicKey p.theirIdentity)
      (.start { aliceState p initial ratchet root chain ct with
          pendingPreKey := pre, pendingKyberPreKey := kyber, localRegistrationId := i, remoteRegistrationId := j }
        { bobState q initial with localRegistrationId := i', remoteRegistrationId := j' }
        [p.theirSignedPre, ratchet.publicKey])
      [⟨q.ourSignedPre, initial.rootKey, initial.chainKey⟩, ⟨ratchet, root, chain⟩]
      (fun | .a2b => 1 | .b2a => 0)
      (.start (ratchetSetup initial p.ourIdentity.publicKey p.theirIdentity)) := by
  have hvalid := generateKeyPair_valid hratchet
  obtain ⟨shared, _, _, horigin⟩ := RootKey.createChain_inv hchain
  obtain ⟨v, hj, _⟩ := Joint.start (ratchetSetup initial p.ourIdentity.publicKey p.theirIdentity)
  rw [h.signedPre] at hchain hne
  refine ⟨⟨?_, ?_, ?_, ?_⟩, ?_, ⟨.a2b, rfl, rfl⟩, ?_, ?_, ?_, ⟨_, v, hj⟩, ?_⟩
  · exact List.forall_mem_cons.mpr ⟨h.recipient.2.1, List.forall_mem_singleton.mpr hvalid⟩
  · exact List.forall_mem_cons.mpr ⟨hindex, List.forall_mem_singleton.mpr (by rw [horigin]; rfl)⟩
  · exact List.isChain_pair.mpr hchain
  · exact hne
  · rw [h.signedPre]
    rfl
  · -- the initiator has opened the chain of the signed pre-key, the recipient none
    intro d
    cases d with
    | a2b =>
      refine ⟨⟨ratchet, root, chain⟩, 0, [.opened p.theirSignedPre.serialize initial.chainKey],
        ⟨rfl, rfl, rfl, ⟨_, LineRun.nil.snoc (.opened _ fun _ hl => absurd hl List.not_mem_nil), ?_⟩, ?_, ?_⟩,
        le_refl _⟩
      · exact .cons (follows_new hindex) .nil
      · have hsmall : Small [] := fun _ _ hi => absurd hi List.not_mem_nil
        exact hsmall.opened _ _
      · rw [h.signedPre]
        rfl
    | b2a =>
      exact ⟨⟨q.ourSignedPre, initial.rootKey, initial.chainKey⟩, 0, [],
        ⟨rfl, rfl, rfl, ⟨[], .nil, .nil⟩, fun _ _ hi => absurd hi List.not_mem_nil, rfl⟩, le_refl _⟩
  · intro d
    cases d with
    | a2b => exact ⟨rfl, rfl, rfl⟩
    | b2a => exact ⟨rfl, congrArg PublicKey.serialize h.theirIdentity.symm, congrArg PublicKey.serialize h.ourIdentity⟩
  · intro d
    cases d with
    | a2b => rfl
    | b2a =>
      rw [← ratchetSetup_comm, h.theirIdentity, ← h.ourIdentity]
      rfl
  · intro d
    cases d <;> exact .nil

end LibSignal.Session
