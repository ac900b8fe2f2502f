import LibSignal.Session.Conversation
import LibSignal.Stores.InMem

/-!
# Pre-key messages until the first reply

A session that was started with a bundle carries the labels of its handshake (`Labelled`).
-/

namespace LibSignal.Session
open Address (ProtocolAddress)
open Chunked (Bytes)
open Crypto Curve Lib Lib.Op Proto Protocol
open Ratchet
open Spqr (StateCodec)

structure Labels where
  identity : PublicKey
  registration : UInt32
  base : PublicKey
  preKeyID : Option UInt32
  signedPreKeyID : UInt32
  kyberPreKeyID : UInt32
  kyberCiphertext : Bytes

/-- The state of the session of a handshake, before or after the first reply. -/
def Labelled (l : Labels) (acked : Bool) (s : SessionState) : Prop :=
  s.localIdentityPublic = l.identity.serialize ∧ s.localRegistrationId = l.registration ∧
    if acked then s.pendingPreKey = none
    else (∃ now, s.pendingPreKey = some ⟨l.preKeyID, l.signedPreKeyID.toInt32, l.base.serialize, now⟩) ∧
      s.pendingKyberPreKey = some ⟨l.kyberPreKeyID, l.kyberCiphertext⟩

/-- A message has the form it should have: as it is after the first reply, and with all labels before. -/
def Wrapped (l : Labels) (acked : Bool) (out : Option SignalMessage × Option PreKeySignalMessage) : Prop :=
  if acked then ∃ signal, out = (some signal, none)
  else ∃ m : PreKeySignalMessage, out = (none, some m) ∧ m.baseKey = l.base ∧ m.preKeyID = l.preKeyID ∧
    m.signedPreKeyID = l.signedPreKeyID ∧ m.kyberPreKeyID = some l.kyberPreKeyID ∧
    m.kyberCiphertext = l.kyberCiphertext ∧ m.identityKey = l.identity ∧ m.registrationID = l.registration

lemma Labelled.congr {l : Labels} {acked : Bool} {s s' : SessionState} (h : Labelled l acked s)
    (hid : s'.localIdentityPublic = s.localIdentityPublic) (hreg : s'.localRegistrationId = s.localRegistrationId)
    (hpre : s'.pendingPreKey = s.pendingPreKey) (hkyber : s'.pendingKyberPreKey = s.pendingKyberPreKey) :
    Labelled l acked s' := by
  rw [Labelled, hid, hreg, hpre, hkyber]
  exact h

lemma wrapPreKey_wrapped [Wire PreKeySignalMessagePB] {l : Labels} {acked : Bool} {s : SessionState} {senderID : PublicKey}
    {signal : SignalMessage} {now : Int} {out : Option SignalMessage × Option PreKeySignalMessage}
    (h : Labelled l acked s) (hsender : deserializePublicKey s.localIdentityPublic = .ok senderID)
    (hout : wrapPreKey s senderID signal now = .ok out) : Wrapped l acked out := by
  obtain ⟨hid, hreg, hpending⟩ := h
  rw [wrapPreKey, SessionState.pendingPreKeyMessage] at hout
  cases acked with
  | true =>
    rw [if_pos rfl] at hpending
    rw [hpending] at hout
    cases hout
    exact ⟨signal, rfl⟩
  | false =>
    rw [if_neg Bool.false_ne_true] at hpending
    obtain ⟨⟨created, hpre⟩, hkyber⟩ := hpending
    rw [hpre] at hout
    simp only [Option.map_some] at hout
    split at hout
    · cases hout
    · obtain ⟨base, hbase, hout⟩ := bind_eq_ok hout
      have hbase := mapError_eq_ok hbase
      rw [deserializePublicKey_serialize] at hbase
      cases hbase
      rw [hid, deserializePublicKey_serialize] at hsender
      cases hsender
      cases hout
      refine ⟨_, rfl, rfl, rfl, ?_, ?_, ?_, rfl, hreg⟩
      · exact UInt32.toUInt32_toInt32 _
      · change s.pendingKyberPreKey.map (·.preKeyId) = _
        rw [hkyber]
        rfl
      · change (s.pendingKyberPreKey.map (·.ciphertext)).getD [] = _
        rw [hkyber]
        rfl

/-- The current session with a peer carries the labels. -/
def Holding (remote : ProtocolAddress) (l : Labels) (acked : Bool)
    (records : ProtocolAddress → Option SessionRecord) : Prop :=
  ∃ r s, records remote = some r ∧ r.current = some s ∧ Labelled l acked s

variable {σ : Type} {host : Host σ} {view : σ → ProtocolAddress → Option SessionRecord} {remote : ProtocolAddress}
  {l : Labels} {acked acked' : Bool}

/-! ## The calls -/

section
variable [Hash] [X25519] [XEdDSA] [StateCodec] [Kem.Kyber1024] [Wire SessionState]

/-- The labels are those of a handshake: the base key and the ciphertext it made, the ids of the bundle, and
what the identity store said. -/
def Handshake (host : Host σ) (rng : Readers) (coins : Bytes) (remote : ProtocolAddress) (bundle : PreKeyBundle)
    (t : σ) (l : Labels) : Prop :=
  (∃ base, generateKeyPair (rng 0) = .ok base ∧ l.base = base.publicKey) ∧
  l.preKeyID = bundle.preKey.map (·.1) ∧ l.signedPreKeyID = bundle.signedPreKeyID ∧
  l.kyberPreKeyID = bundle.kyberPreKeyID ∧
  (∃ ss, bundle.kyberPreKey.encapsulate coins = .ok (ss, l.kyberCiphertext)) ∧
  ∃ t1 loaded t2 identity t3 t4, host.isTrustedIdentity remote bundle.identityKey .sending t = (.ok true, t1) ∧
    host.loadSession remote t1 = (.ok loaded, t2) ∧ host.getIdentityKeyPair t2 = (.ok identity, t3) ∧
    l.identity = identity.publicKey ∧ host.getLocalRegistrationID t3 = (.ok l.registration, t4)

lemma processPreKeyBundle_holding (hv : host.ByValue view) {rng : Readers} {coins : Bytes} {now : UInt64}
    {bundle : PreKeyBundle} {t t' : σ}
    (h : processPreKeyBundle host rng coins now remote bundle t = (.ok (), t')) :
    ∃ l, Handshake host rng coins remote bundle t l ∧ Holding remote l false (view t') := by
  obtain ⟨trusted, t1, htrust, h⟩ := Op.bind_ok h
  split at h
  · cases h
  rename_i htrusted
  split at h
  · cases h
  split at h
  · cases h
  obtain ⟨loaded, t2, hload, h⟩ := Op.bind_ok h
  obtain ⟨identity, t3, hident, h⟩ := Op.bind_ok h
  obtain ⟨registration, t4, hreg, h⟩ := Op.bind_ok h
  obtain ⟨base, hbase, h⟩ := Op.lift_bind_ok h
  obtain ⟨s, hs, h⟩ := Op.lift_bind_ok h
  obtain ⟨_, t5, _, h⟩ := Op.bind_ok h
  obtain ⟨_, t6, _, hstore⟩ := Op.bind_ok h
  obtain ⟨s0, pk, hinit, hpk, rfl⟩ := bundleSession_inv hs
  obtain ⟨_, _, _, _, ss, ct, _, _, _, _, _, hkyber, _, _, _, rfl⟩ := initializeAliceSession_inv hinit
  cases hpk
  have htrusted : trusted = true := Bool.eq_true_of_not_eq_false htrusted
  refine ⟨⟨identity.publicKey, registration, base.publicKey, bundle.preKey.map (·.1), bundle.signedPreKeyID,
    bundle.kyberPreKeyID, ct⟩, ⟨⟨base, mapError_eq_ok hbase, rfl⟩, rfl, rfl, rfl, ⟨ss, hkyber⟩, t1, loaded, t2,
    identity, t3, t4, htrusted ▸ mapErr_ok htrust, mapErr_ok hload, mapErr_ok hident, rfl, mapErr_ok hreg⟩, ?_⟩
  rw [hv.storeSession_ok _ _ _ _ (mapErr_ok hstore)]
  exact ⟨_, _, Function.update_self .., rfl, rfl, rfl, ⟨now, rfl⟩, rfl⟩

end

section
variable [Hash] [Aes] [IncrementalKem] [StateCodec]

lemma Labelled.decrypted [X25519] {s s' : SessionState} {m : SignalMessage} {rng : Reader} {ptext : Bytes}
    (h : Labelled l acked s) (hdec : decryptWithState s m rng = .ok (ptext, s')) : Labelled l true s' := by
  obtain ⟨hparties, hpre, _⟩ := decryptWithState_parties hdec
  simp only [SessionState.parties, Prod.mk.injEq] at hparties
  obtain ⟨_, hid, _, hreg, _⟩ := hparties
  exact ⟨hid.trans h.1, hreg.trans h.2.1, hpre⟩

variable [X25519] [Wire SignalMessagePB] [Wire PreKeySignalMessagePB]

lemma Labelled.sent {s s' : SessionState} {out : Option SignalMessage × Option PreKeySignalMessage}
    (h : Labelled l acked s) (hstep : SessionStep s (.sent out) s') : Labelled l acked s' ∧ Wrapped l acked out := by
  cases hstep with
  | sent hkeys hsend hbuild hset =>
    obtain ⟨_, _, _, rfl⟩ := SessionState.pqRatchetSend_inv hsend
    obtain ⟨_, _, rfl⟩ := SessionState.setSenderChainKey_inv hset
    obtain ⟨_, _, _, signal, _, _, _, _, hwrap⟩ := buildMessage_inv hbuild
    refine ⟨h.congr rfl rfl rfl rfl, ?_⟩
    exact wrapPreKey_wrapped (h.congr rfl rfl rfl rfl) (sendingKeys_inv hkeys).1 hwrap

lemma Works.sent_holding {out : Option SignalMessage × Option PreKeySignalMessage}
    {V V' : ProtocolAddress → Option SessionRecord} (h : Works remote (.sent out) V V')
    (hV : Holding remote l acked V) : Holding remote l acked V' ∧ Wrapped l acked out := by
  obtain ⟨r, s, s', hr, hs, hstep, rfl⟩ := h
  obtain ⟨r', s1, hr', hs1, hl⟩ := hV
  cases hr.symm.trans hr'
  cases hs.symm.trans hs1
  obtain ⟨hl', hwrapped⟩ := hl.sent hstep
  exact ⟨⟨_, s', Function.update_self .., rfl, hl'⟩, hwrapped⟩

lemma Works.received_holding {m : SignalMessage} {ptext : Bytes} {V V' : ProtocolAddress → Option SessionRecord}
    (h : Works remote (.received m ptext) V V') (hV : Holding remote l acked V) : Holding remote l true V' := by
  obtain ⟨r, s, s', hr, hs, hstep, rfl⟩ := h
  obtain ⟨r', s1, hr', hs1, hl⟩ := hV
  cases hr.symm.trans hr'
  cases hs.symm.trans hs1
  cases hstep with
  | received hdec => exact ⟨_, s', Function.update_self .., rfl, hl.decrypted hdec⟩

/-! ## Conversations -/

inductive Talk where
  | encrypt (plaintext : Bytes) (now : Int) (rng : Reader)
  | decrypt (m : SignalMessage) (rng : Reader)

def Talk.exec (host : Host σ) (remote : ProtocolAddress) : Talk → Bool × σ → Bool × σ
  | encrypt plaintext now rng, (acked, t) => (acked, (Session.encrypt host plaintext remote now rng t).2)
  | decrypt m rng, (acked, t) =>
    match Session.decrypt host m remote rng t with
    | (.ok _, t') => (true, t')
    | (.error _, t') => (acked, t')

def talk (host : Host σ) (remote : ProtocolAddress) (calls : List Talk) (t : σ) : Bool × σ :=
  calls.foldl (fun b c => c.exec host remote b) (false, t)

lemma Talk.exec_holding (hv : host.ByValue view) (c : Talk) {b : Bool × σ} (h : Holding remote l b.1 (view b.2)) :
    Holding remote l (c.exec host remote b).1 (view (c.exec host remote b).2) := by
  obtain ⟨acked, t⟩ := b
  cases c with
  | encrypt plaintext now rng =>
    change Holding remote l acked (view (Session.encrypt host plaintext remote now rng t).2)
    have htriple := triple_encrypt_view hv remote plaintext now rng t (Eq.refl (view t))
    cases hrun : Session.encrypt host plaintext remote now rng t with
    | mk r t' =>
      cases r with
      | ok out => exact ((htriple.1 out t' hrun).sent_holding h).1
      | error e => exact htriple.2 e t' hrun ▸ h
  | decrypt m rng =>
    have htriple := triple_decrypt_view hv remote m rng t (Eq.refl (view t))
    rw [Talk.exec]
    split
    · exact (htriple.1 _ _ ‹_›).works.received_holding h
    · exact htriple.2 _ _ ‹_› ▸ h

lemma talk_holding (hv : host.ByValue view) (calls : List Talk) {t : σ} (h : Holding remote l false (view t)) :
    Holding remote l (talk host remote calls t).1 (view (talk host remote calls t).2) := by
  have hrun : ∀ (b : Bool × σ), Holding remote l b.1 (view b.2) →
      Holding remote l (calls.foldl (fun b c => c.exec host remote b) b).1
        (view (calls.foldl (fun b c => c.exec host remote b) b).2) := by
    induction calls with
    | nil => exact fun _ hb => hb
    | cons c calls ih => exact fun b hb => ih _ (c.exec_holding hv hb)
  exact hrun (false, t) h

variable [XEdDSA] [Kem.Kyber1024] [Wire SessionState]

/-- Until a message of the peer was decrypted every message has the pre-key form, with the labels of the
handshake; from then on none has. A call that fails changes nothing of this. -/
theorem prekey_wrapping (hv : host.ByValue view) {rng : Readers} {coins : Bytes} {now : UInt64}
    {bundle : PreKeyBundle} {t t' : σ}
    (h : processPreKeyBundle host rng coins now remote bundle t = (.ok (), t')) :
    ∃ l, Handshake host rng coins remote bundle t l ∧
      ∀ (calls : List Talk) (plaintext : Bytes) (clock : Int) (random : Reader)
        (out : Option SignalMessage × Option PreKeySignalMessage) (u : σ),
        encrypt host plaintext remote clock random (talk host remote calls t').2 = (.ok out, u) →
          Wrapped l (talk host remote calls t').1 out := by
  obtain ⟨l, hl, hholding⟩ := processPreKeyBundle_holding hv h
  refine ⟨l, hl, fun calls plaintext clock random out u hrun => ?_⟩
  have htriple := triple_encrypt_view hv remote plaintext clock random _ (Eq.refl (view (talk host remote calls t').2))
  exact ((htriple.1 out u hrun).sent_holding (talk_holding hv calls hholding)).2

end

section
attribute [local instance] zeroHash oneX25519 zeroKem Spqr.unaryCodec plainAes Kem.zeroKyber zeroXEdDSA
attribute [local instance] unaryWire

/-- The theorem on the in-memory stores and a bundle. -/
theorem prekey_wrapping_sample : ∃ t', processPreKeyBundle Stores.InMem.host (fun _ => zeroReader) [] 0
      Stores.samplePeer Stores.sampleBundle (.new Stores.sampleKeys 7) = (.ok (), t') ∧
    ∃ l, Handshake Stores.InMem.host (fun _ => zeroReader) [] Stores.samplePeer Stores.sampleBundle
        (.new Stores.sampleKeys 7) l ∧ ∀ (calls : List Talk) (plaintext : Bytes) (clock : Int) (random : Reader)
        (out : Option SignalMessage × Option PreKeySignalMessage) (u : Stores.InMem),
        encrypt Stores.InMem.host plaintext Stores.samplePeer clock random
          (talk Stores.InMem.host Stores.samplePeer calls t').2 = (.ok out, u) →
          Wrapped l (talk Stores.InMem.host Stores.samplePeer calls t').1 out := by
  obtain ⟨_, t', _, hrun, _⟩ := Stores.sample_processed
  exact ⟨t', hrun, prekey_wrapping Stores.InMem.byValue hrun⟩

end

end LibSignal.Session
