import LibSignal.Session.EndToEnd
import LibSignal.Spqr.Progress

/-!
# The first message of a session

The first message of an initiator is within the reach of the recipient, and its part of the post-quantum ratchet
is accepted (`Linked.first`).
-/

namespace LibSignal.Session
open Address (ProtocolAddress)
open Chunked (Bytes)
open Crypto Curve Lib Lib.Op Proto Protocol Ratchet Stores
open Spqr (StateCodec Setup switchDirection)

lemma steppedKey_none [X25519] {m : SignalMessage} {rng : Reader} {pair : KeyPair} (h : generateKeyPair rng = .ok pair) :
    Ledger.steppedKey none m rng = [pair.publicKey] := by
  change Ledger.generatedKey rng = _
  rw [Ledger.generatedKey, h]

lemma resolveMaxJump_pos (p : Option Spqr.ChainParams) : 0 < (Spqr.resolveMaxJump p).toNat := by
  cases p with
  | none => decide
  | some p =>
    rw [Spqr.resolveMaxJump]
    split
    · decide
    · rename_i hjump
      exact Nat.pos_of_ne_zero fun hzero => hjump (UInt32.toNat_inj.mp hzero)

section
variable [Hash] [IncrementalKem] [StateCodec]

lemma first_accepted {u : Setup} (hK : IncrementalKem.Correct) (hmin : ∀ d, u.minVersion d = Spqr.v1) {rng : Reader}
    {res : Spqr.SendResult} (h : Spqr.send (Spqr.Net.state (.start u) .a2b) rng = .ok res) :
    Spqr.epochOf res.state = 1 ∧ ∃ out, Spqr.recv (Spqr.Net.state (.start u) .b2a) res.msg = .ok out := by
  obtain ⟨v, hj, hv⟩ := Spqr.Joint.start u
  obtain ⟨t, w, s', es, p, idx, hj', hlog, hstep, hlike⟩ := hj.send (by change 0 + 1 < 2 ^ 32; norm_num) h
  have hw : w.s.epoch = (v .a2b).s.epoch := hlike.epoch.trans (Spqr.V1State.sendStep_move hstep).1
  refine ⟨?_, ?_⟩
  · have hepoch := hj'.epochOf_eq .a2b
    rw [Function.update_self, hw, hv] at hepoch
    exact hepoch
  · refine hj'.recv_latest hK (d := .b2a) (.inr (hmin _)) ?_ (k := 0) rfl ?_ (Nat.zero_le _) ?_
    · change (v .b2a).s.epoch.toNat + 1 < 2 ^ 64
      rw [hv]
      decide
    · change Spqr.epochOf (Spqr.Net.state (.start u) .a2b) = (Function.update v .a2b w .a2b).s.epoch
      rw [Function.update_self, hw, hj.epochOf_eq]
    · exact Nat.lt_add_of_pos_right (resolveMaxJump_pos _)

end

section
variable [Wire RecordStructure] [Hash] [IncrementalKem] [StateCodec] [Aes] [Wire SignalMessagePB]
  [Wire PreKeySignalMessagePB] {t : InMem} {remote : ProtocolAddress} {r : SessionRecord} {s : SessionState}
  {ours theirs : PublicKey} {ck : ChainKey}

lemma encrypt_ok (hknown : t.knownKeys remote = some theirs) (hr : t.records remote = some r) (hs : r.current = some s)
    (hcan : CanSend s.pqRatchetState) (hkeys : sendingKeys s = .ok (ours, theirs, ck)) {plaintext : Bytes} {now : Int}
    (hbuild : ∀ b pqrMsg pqrKey, ∃ out, buildMessage { s with pqRatchetState := b } ours theirs ck pqrMsg pqrKey
      plaintext now = .ok out) {rng : Reader} (hrng : ∀ n, (rng.read n).isSome) :
    ∃ out t', encrypt InMem.host plaintext remote now rng t = (.ok out, t') := by
  obtain ⟨res, hres, _⟩ := hcan.send rng hrng
  obtain ⟨out, hbuild⟩ := hbuild res.state res.msg (res.key.getD [])
  have hsend : s.pqRatchetSend rng = .ok ((res.msg, res.key.getD []), { s with pqRatchetState := res.state }) := by
    rw [SessionState.pqRatchetSend, hres]
    rfl
  have hload : InMem.host.loadSession remote t = (.ok (some r), t) := loadSession_of_records hr
  have htrust : InMem.host.isTrustedIdentity remote theirs .sending t = (.ok true, t) := by
    change InMem.isTrustedIdentity remote theirs .sending t = _
    rw [InMem.isTrustedIdentity, hknown]
    exact congrArg (fun b => (Except.ok b, t)) (PublicKey.equal_iff.mpr rfl)
  have hsave : InMem.host.saveIdentity remote theirs t = (.ok .newOrUnchanged, t) := by
    change InMem.saveIdentity remote theirs t = _
    rw [InMem.saveIdentity, hknown]
    exact if_pos (PublicKey.equal_iff.mpr rfl)
  obtain ⟨_, _, hck⟩ := sendingKeys_inv hkeys
  obtain ⟨sc, hsc⟩ := senderChain_of_key hck
  have hset := setSenderChainKey_of_chain (s := { s with pqRatchetState := res.state }) hsc ck.next
  exact ⟨out, _, encrypt_eq_ok hload hs hkeys hsend hbuild htrust hsave hset
    (show InMem.host.storeSession _ _ _ = _ from rfl)⟩

omit [Aes] [Wire SignalMessagePB] [Wire PreKeySignalMessagePB] [Wire RecordStructure] [IncrementalKem] in
lemma bundleSession_canSend [X25519] [Kem.Kyber1024] {rng : Reader} {coins : Bytes} {now : UInt64} {bundle : PreKeyBundle}
    {identity base : KeyPair} {id : UInt32} (h : bundleSession rng coins now bundle identity base id = .ok s) :
    CanSend s.pqRatchetState := by
  obtain ⟨_, _, hinit, _, rfl⟩ := bundleSession_inv h
  obtain ⟨_, _, _, _, _, _, initial, _, _, _, _, _, _, _, _, rfl⟩ := initializeAliceSession_inv hinit
  exact canSend_initial .a2b _ _ _

end

/-! ## The first message -/

section
variable [Wire RecordStructure] [Hash] [X25519] [IncrementalKem] [StateCodec] [Aes] [Wire SignalMessagePB]
  [Wire PreKeyRecordStructure] [Wire SignedPreKeyRecordStructure] [EdwardsPoints] [Kem.Kyber1024]
  [Wire PreKeySignalMessagePB] [Wire SessionState]
  {addr : Spqr.Direction → ProtocolAddress} {id : Spqr.Direction → PublicKey} {u : Setup} {l : Labels}
  {b : SessionState} {B A : InMem} {keys : List PublicKey}

lemma Linked.first (hK : IncrementalKem.Correct) (h : Linked addr id u l b B (.start A B keys))
    (hP : Peers.Within addr (.start A B keys)) (hratchet : ∀ d, ((Peers.dialogue addr (.start A B keys) b).state
      d).pqRatchetState = Spqr.Net.state (.start u) d) {plaintext : Bytes} {now : Int} {rng : Reader} {out : Envelope}
    {t : InMem} (henc : encrypt InMem.host plaintext (addr .b2a) now rng A = (.ok out, t)) : ∃ (P : Peers)
      (m : SignalMessage), Peers.Run addr (.start A B keys) P ∧ P.stores .b2a = B ∧
      P.sent .a2b = [(out, m, plaintext)] ∧ P.keys = keys ∧ P.Reaches addr .b2a m ∧ P.session addr .b2a = none ∧
      Linked addr id u l b B P ∧ ∃ res, Spqr.recv b.pqRatchetState m.pqRatchet = .ok res := by
  have hB : Peers.session addr (.start A B keys) .b2a = none := h.awaits.session rfl
  obtain ⟨m, s, s', hm, hs, hs', hwrites, _⟩ := encrypt_writes henc
  have hs : Peers.session addr (.start A B keys) .a2b = some s := hs
  have hstate : (Peers.dialogue addr (.start A B keys) b).state .a2b = s := by
    rw [Peers.dialogue_state, hs]
    rfl
  have hratchetA := hratchet .a2b
  have hratchetB := hratchet .b2a
  rw [Peers.dialogue_state, hB] at hratchetB
  obtain ⟨L, n, net, htalk⟩ := h.talking
  obtain ⟨r, _, _, _, res, hsend, hseat, _, hcounter, hs'ratchet, _, hletter⟩ :=
    htalk.written (hstate ▸ hwrites) (Nat.two_pow_pos 31)
  obtain ⟨_, hsender, hmsg⟩ := hletter.fields
  rw [hratchetA] at hsend
  obtain ⟨hepoch, got, hrecv⟩ := first_accepted hK h.version hsend
  obtain ⟨P, hstores, hsent, rfl, hstep⟩ : ∃ P : Peers,
      P.stores = Function.update (Peers.start A B keys).stores .a2b t ∧
      P.sent = Function.update (Peers.start A B keys).sent .a2b [(out, m, plaintext)] ∧
      P.keys = keys ∧ Peers.Step addr (.start A B keys) .a2b P := ⟨_, rfl, rfl, rfl, .sent henc hm⟩
  obtain ⟨hself, hother⟩ := Peers.session_update addr hstores
  have hself := hself.trans hs'
  have hother := hother.trans hB
  refine ⟨P, m, .single ⟨⟨.a2b, hstep⟩, hP.keys, ?_, ?_⟩, ?_, ?_, rfl, ?_, hother,
    h.sent hP henc hm rfl hstores hsent rfl, got, ?_⟩
  · intro d
    rw [hsent]
    cases d with
    | a2b => exact Nat.one_lt_two_pow (by norm_num)
    | b2a => exact Nat.two_pow_pos 31
  · intro d s1 hs1
    cases d with
    | a2b =>
      cases hself.symm.trans hs1
      rw [hs'ratchet, hepoch]
      decide
    | b2a => cases hother.symm.trans hs1
  · rw [hstores]
    rfl
  · rw [hsent]
    rfl
  · have hnone : P.session addr .b2a = none := hother
    rw [Peers.Reaches, hnone]
    refine ⟨⟨s', hself, ?_⟩, hcounter.trans (Nat.zero_le _)⟩
    rw [hsender]
    exact hseat.senderRatchetKey
  · rw [hmsg]
    exact hratchetB ▸ hrecv

lemma Linked.ready (hX : X25519.Commutes) (haes : Aes.Inverse) (hK : IncrementalKem.Correct)
    (h : Linked addr id u l b B (.start A B keys)) (hP : Peers.Within addr (.start A B keys))
    (hratchet : ∀ d, ((Peers.dialogue addr (.start A B keys) b).state d).pqRatchetState = Spqr.Net.state (.start u) d)
    {plaintext : Bytes} {now : Int} {rng : Reader} {out : Envelope} {t : InMem}
    (henc : encrypt InMem.host plaintext (addr .b2a) now rng A = (.ok out, t))
    (htrust : InMem.isTrustedIdentity (addr .a2b) l.identity .receiving B = (.ok true, B)) {rng' : Reader} {pair : KeyPair}
    (hpair : generateKeyPair rng' = .ok pair) (hfresh : (keys ++ [pair.publicKey]).Nodup) :
    ∃ pm working s', out = (none, some pm) ∧ Fits l pm ∧
      Ready pm (addr .a2b) rng' B false working b plaintext s' := by
  obtain ⟨P, m, _, hB, hsent, rfl, hreach, hnone, hlinked, res, hrecv⟩ := h.first hK hP hratchet henc
  have he : (out, m, plaintext) ∈ P.sent .a2b := hsent ▸ List.mem_singleton_self _
  obtain ⟨hsignal, hwrapped⟩ := hlinked.forms _ _ he
  obtain ⟨plain, wrapped⟩ := out
  -- a recipient that waits has been sent pre-key messages only
  obtain rfl : plain = none := by
    rcases hlinked.recipient with ⟨s, _, hs, _⟩ | ⟨_, _, hpre⟩
    · cases hnone.symm.trans hs
    · exact hpre _ he
  cases wrapped with
  | none => cases hsignal
  | some pm =>
    cases hsignal
    obtain ⟨_, hfits⟩ := hwrapped pm rfl
    have hstate : (P.dialogue addr b).state .b2a = b := by
      rw [Peers.dialogue_state, hnone]
      rfl
    have hkeys : Ledger.steppedKey (some ((P.dialogue addr b).state .b2a)) pm.message rng' = [pair.publicKey] := by
      rw [hlinked.steppedKey_eq, hnone, steppedKey_none hpair]
    have hletter : ((P.dialogue addr b).sent .a2b)[0]? = some (pm.message, plaintext) := by
      change ((P.sent .a2b).map (·.2))[0]? = _
      rw [hsent]
      rfl
    obtain ⟨L, n, net, htalk⟩ := hlinked.talking
    obtain ⟨s', hdec⟩ := htalk.delivers (d := .b2a) hX haes hK (.inr (hlinked.version _))
      (by rw [hstate]; exact hlinked.awaits.epoch) hletter (hlinked.reaches hreach) ⟨pair, hpair⟩
      (by rw [hstate]; exact hrecv) (by rw [hkeys]; exact hfresh)
    rw [hstate] at hdec
    exact ⟨pm, _, s', rfl, hfits, hfits.identity ▸ htrust,
      ⟨none, hlinked.awaits.load, preKeyRecord_fresh (hlinked.awaits.new pm hfits)⟩, hdec⟩

end

/-! ## Sample parties -/

@[reducible] def tagX25519 : X25519 where
  x25519 scalar point := some (1 :: (if point = basepoint then scalar.getD 1 0 else 0) :: zeros 30)
  x25519_length _ _ _ h := by cases h; rfl

lemma tagX25519_commutes : @X25519.Commutes tagX25519 := by
  let _ := tagX25519
  have hshared : ∀ (p : PrivateKey) (k : KeyPair), k.Valid → p.calculateAgreement k.publicKey = .ok (1 :: zeros 31) := by
    rintro p ⟨pub, priv⟩ hk
    have hk : priv.publicKey = .ok pub := hk
    cases hk
    rfl
  exact ⟨fun _ => ⟨_, rfl⟩, fun k k' hk hk' => ⟨_, hshared _ _ hk', hshared _ _ hk⟩⟩

def tagReader (c : UInt8) : Reader :=
  ⟨fun n => some (List.replicate n c), by rintro n b h; cases h; exact List.length_replicate⟩

def tagKeys (c : UInt8) : KeyPair :=
  ⟨⟨.djb, 1 :: c :: zeros 30, rfl⟩, privateKeyFromBytes (List.replicate 32 c) rfl⟩

section
attribute [local instance] zeroHash tagX25519 zeroKem Spqr.unaryCodec plainAes Kem.zeroKyber freePoints zeroXEdDSA
attribute [local instance] unaryWire

lemma tagKeys_generated (c : UInt8) : generateKeyPair (tagReader c) = .ok (tagKeys c) := rfl


def tagBundle : PreKeyBundle :=
  { Stores.sampleBundle with signedPreKey := (tagKeys 1).publicKey, identityKey := (tagKeys 3).publicKey }

def tagAddress : Spqr.Direction → ProtocolAddress
  | .a2b => ⟨"alice", ⟨1⟩⟩
  | .b2a => ⟨"bob", ⟨1⟩⟩

def zeroKyberPair : Kem.KeyPair := ⟨⟨.kyber1024, zeros 1568⟩, ⟨.kyber1024, zeros 3168⟩⟩

noncomputable def tagRecipient (seen : List PublicKey) : InMem := { InMem.new (tagKeys 3) 1 with
  signedPreKeys := fun _ => some (marshal (α := SignedPreKeyRecordStructure)
    ⟨2, (tagKeys 1).publicKey.serialize, (tagKeys 1).privateKey.data, [], 0⟩)
  kyberPreKeys := fun _ => some (marshal (α := SignedPreKeyRecordStructure)
    ⟨3, zeroKyberPair.publicKey.serialize, zeroKyberPair.secretKey.serialize, [], 0⟩)
  baseKeysSeen := fun _ => seen }

lemma tagRecipient_backs (seen : List PublicKey) :
    Backs (tagRecipient seen) tagBundle (tagKeys 1) none zeroKyberPair := by
  refine ⟨⟨rfl, rfl⟩, ⟨rfl, rfl, _, _, rfl, unmarshal_marshal _, rfl⟩,
    ⟨⟨[], rfl⟩, rfl, _, _, rfl, unmarshal_marshal _, ?_⟩, nofun, rfl, rfl⟩
  exact Kem.keyPairFromPublicAndSecret_serialize ⟨[], rfl⟩

def tagReaders : Readers := fun n => tagReader (if n = 0 then 0 else 2)

def tagKnown : InMem := { InMem.new (tagKeys 0) 7 with
  knownKeys := Function.update (fun _ => none) (tagAddress .b2a) (some (tagKeys 3).publicKey) }

lemma tagKnown_knownKeys : tagKnown.knownKeys (tagAddress .b2a) = some (tagKeys 3).publicKey := by
  rw [tagKnown]
  exact Function.update_self (tagAddress .b2a) (some (tagKeys 3).publicKey) fun _ => none

lemma tag_session : ∃ s ck, bundleSession (tagReader 2) [] 0 tagBundle (tagKeys 0) (tagKeys 0) 7 = .ok s ∧
    processPreKeyBundle InMem.host tagReaders [] 0 (tagAddress .b2a) tagBundle (.new (tagKeys 0) 7) =
      (.ok (), (InMem.storeSession (tagAddress .b2a) ⟨some s, []⟩ tagKnown).2) ∧
    sendingKeys s = .ok ((tagKeys 0).publicKey, (tagKeys 3).publicKey, ck) ∧ ∀ b pqrMsg pqrKey,
      ∃ out, buildMessage { s with pqRatchetState := b } (tagKeys 0).publicKey (tagKeys 3).publicKey ck pqrMsg pqrKey
        [1] 0 = .ok out := 
  ⟨_, _, rfl, rfl, rfl, fun _ _ _ => ⟨_, rfl⟩⟩

lemma tag_sends : ∃ A' out t,
    processPreKeyBundle InMem.host tagReaders [] 0 (tagAddress .b2a) tagBundle (.new (tagKeys 0) 7) = (.ok (), A') ∧
    encrypt InMem.host [1] (tagAddress .b2a) 0 zeroReader A' = (.ok out, t) := by
  obtain ⟨s, ck, hs, hprocess, hkeys, hbuild⟩ := tag_session
  have hr := (congrFun (InMem.records_store tagKnown (tagAddress .b2a) ⟨some s, []⟩) (tagAddress .b2a)).trans
    (Function.update_self _ _ _)
  have hknown : (InMem.storeSession (tagAddress .b2a) ⟨some s, []⟩ tagKnown).2.knownKeys (tagAddress .b2a) =
    some (tagKeys 3).publicKey := tagKnown_knownKeys
  obtain ⟨out, t, henc⟩ := encrypt_ok hknown hr rfl (bundleSession_canSend hs) hkeys hbuild
    (show ∀ n, (zeroReader.read n).isSome = true from fun _ => rfl)
  exact ⟨_, out, t, hprocess, henc⟩

lemma tag_introduced {A' : InMem} (seen : List PublicKey) (h : processPreKeyBundle InMem.host tagReaders [] 0
      (tagAddress .b2a) tagBundle (.new (tagKeys 0) 7) = (.ok (), A')) :
    Introduced tagAddress (.new (tagKeys 0) 7) (tagRecipient seen) tagBundle tagReaders [] 0 A' (tagKeys 0) (tagKeys 2) :=
  ⟨h, rfl, rfl, rfl, ⟨_, _, _, tagRecipient_backs seen⟩, rfl, rfl, by decide⟩

end

/-! ## Delivery -/

section
variable [Wire RecordStructure] [Hash] [X25519] [IncrementalKem] [StateCodec] [Aes] [Wire SignalMessagePB]
  [Wire PreKeyRecordStructure] [Wire SignedPreKeyRecordStructure] [EdwardsPoints] [Kem.Kyber1024]
  [Wire PreKeySignalMessagePB] [Wire SessionState] [XEdDSA] {addr : Spqr.Direction → ProtocolAddress} {A A' B : InMem}
  {bundle : PreKeyBundle} {rng : Readers} {coins : Bytes} {now : UInt64} {base ratchet : KeyPair}

/-- After a bundle was processed, and after any calls of both parties: a message within the reach of its receiver,
who trusts the sender and accepts the part of the post-quantum ratchet, is decrypted to what was encrypted. -/
theorem end_to_end_delivery (hX : X25519.Commutes) (haes : Aes.Inverse) (hK : IncrementalKem.Correct)
    (hkem : Kem.Kyber1024.Correct) (h : Introduced addr A B bundle rng coins now A' base ratchet)
    (hunseen : base.publicKey ∉ B.baseKeysSeen (bundle.kyberPreKeyID, bundle.signedPreKeyID)) {P : Peers}
    (hrun : Peers.Run addr (.start A' B [bundle.signedPreKey, ratchet.publicKey]) P) {d : Spqr.Direction}
    {e : Envelope × SignalMessage × Bytes} (he : e ∈ P.sent (switchDirection d)) (hreach : P.Reaches addr d e.2.1)
    (htrust : ∀ pm, e.1.2 = some pm →
      InMem.isTrustedIdentity (addr (switchDirection d)) pm.identityKey .receiving (P.stores d) =
        (.ok true, P.stores d)) {random : Reader} (hpair : ∃ pair, generateKeyPair random = .ok pair)
    (hfresh : (P.keys ++ Ledger.steppedKey (P.session addr d) e.2.1 random).Nodup)
    (hrecv : ∀ s, Uses (P.stores d) (addr (switchDirection d)) s e.1 →
      ∃ res, Spqr.recv s.pqRatchetState e.2.1.pqRatchet = .ok res) :
    ∃ t, openEnvelope (addr (switchDirection d)) random e.1 (P.stores d) = (.ok e.2.2, t) := by
  obtain ⟨id, u, l, b, hlinked, hwithin, _, hbase, hkyber, hsigned, _⟩ := h.linked hX hkem
  rw [← hbase, ← hkyber, ← hsigned] at hunseen
  obtain ⟨hlinked, hwithin⟩ := hlinked.run hunseen hX haes hK hwithin hrun
  exact hlinked.delivers hunseen hX haes hK hwithin he hreach htrust hpair hfresh hrecv

end

section
attribute [local instance] zeroHash tagX25519 zeroKem Spqr.unaryCodec plainAes Kem.zeroKyber freePoints zeroXEdDSA
attribute [local instance] unaryWire

/-- A bundle is processed, and the first message is delivered. -/
theorem end_to_end_delivery_sample : ∃ (A' : InMem) (P : Peers) (e : Envelope × SignalMessage × Bytes) (t : InMem),
    processPreKeyBundle InMem.host tagReaders [] 0 (tagAddress .b2a) tagBundle (.new (tagKeys 0) 7) = (.ok (), A') ∧
    Peers.Run tagAddress (.start A' (tagRecipient []) [(tagKeys 1).publicKey, (tagKeys 2).publicKey]) P ∧
    P.sent .a2b = [e] ∧ e.2.2 = [1] ∧
    openEnvelope (tagAddress .a2b) (tagReader 4) e.1 (P.stores .b2a) = (.ok [1], t) := by
  obtain ⟨A', out, t, hprocess, henc⟩ := tag_sends
  have h := tag_introduced [] hprocess
  obtain ⟨id, u, l, b, hlinked, hwithin, _, hbase, hkyber, hsigned, hratchet⟩ :=
    h.linked tagX25519_commutes Kem.zeroKyber_correct
  obtain ⟨P, m, hrun, hB, hsent, hkeys, hreach, hnone, hlinked', res, hrecv⟩ :=
    hlinked.first zeroKem_correct hwithin hratchet henc
  have he : (out, m, [1]) ∈ P.sent (switchDirection .b2a) := hsent ▸ List.mem_singleton_self _
  have hunseen : (tagKeys 0).publicKey ∉ (tagRecipient []).baseKeysSeen (3, 2) := List.not_mem_nil
  obtain ⟨t', hopen⟩ := end_to_end_delivery tagX25519_commutes plainAes_inverse zeroKem_correct Kem.zeroKyber_correct h
    hunseen hrun he hreach (fun pm hpm => by rw [hB]; rfl) ⟨_, tagKeys_generated 4⟩
    (by rw [hkeys, hnone, steppedKey_none (tagKeys_generated 4)]; decide) fun s hs => by
      have huses := hlinked'.uses (hbase ▸ hkyber ▸ hsigned ▸ hunseen) he
      rw [Peers.dialogue_state, hnone] at huses
      rw [hs.unique huses]
      exact ⟨res, hrecv⟩
  exact ⟨A', P, (out, m, [1]), t', hprocess, hrun, hsent, rfl, hopen⟩

end

section
variable [Wire RecordStructure] [Hash] [X25519] [IncrementalKem] [StateCodec] [Aes] [Wire SignalMessagePB]
  [Wire PreKeyRecordStructure] [Wire SignedPreKeyRecordStructure] [EdwardsPoints] [Kem.Kyber1024]
  [Wire PreKeySignalMessagePB] [Wire SessionState] [XEdDSA] {addr : Spqr.Direction → ProtocolAddress} {A A' B : InMem}
  {bundle : PreKeyBundle} {rng : Readers} {coins : Bytes} {now : UInt64} {base ratchet : KeyPair}

/-- The first message after a bundle was processed is a pre-key message, which a recipient that trusts the sender
decrypts. -/
theorem first_contact (hX : X25519.Commutes) (haes : Aes.Inverse) (hK : IncrementalKem.Correct)
    (hkem : Kem.Kyber1024.Correct) (h : Introduced addr A B bundle rng coins now A' base ratchet)
    (hunseen : base.publicKey ∉ B.baseKeysSeen (bundle.kyberPreKeyID, bundle.signedPreKeyID))
    (htrust : InMem.isTrustedIdentity (addr .a2b) A.keyPair.publicKey .receiving B = (.ok true, B)) {plaintext : Bytes}
    {clock : Int} {random random' : Reader} {out : Envelope} {t : InMem}
    (henc : encrypt InMem.host plaintext (addr .b2a) clock random A' = (.ok out, t)) {pair : KeyPair}
    (hpair : generateKeyPair random' = .ok pair)
    (hfresh : [bundle.signedPreKey, ratchet.publicKey, pair.publicKey].Nodup) :
    ∃ pm t', out = (none, some pm) ∧ decryptPreKey InMem.host pm (addr .a2b) random' B = (.ok plaintext, t') := by
  obtain ⟨id, u, l, b, hlinked, hwithin, hidentity, hbase, hkyber, hsigned, hratchet⟩ := h.linked hX hkem
  rw [← hbase, ← hkyber, ← hsigned] at hunseen
  obtain ⟨pm, working, s', hout, hfits, hready⟩ :=
    hlinked.ready hX haes hK hwithin hratchet henc (hidentity ▸ htrust) hpair hfresh
  rcases commitPreKey_run pm (addr .a2b) false { working with current := some s' } B with
    ⟨_, hseen, _⟩ | ⟨_, t', hcommit⟩
  · exact absurd (hfits.seen_iff.mp hseen) hunseen
  · exact ⟨pm, t', hout, hready.run.trans (bind_run_ok hcommit)⟩

end

section
attribute [local instance] zeroHash tagX25519 zeroKem Spqr.unaryCodec plainAes Kem.zeroKyber freePoints zeroXEdDSA
attribute [local instance] unaryWire

/-- The first contact of the sample parties. -/
theorem first_contact_sample : ∃ (A' : InMem) (out : Envelope) (t : InMem),
    processPreKeyBundle InMem.host tagReaders [] 0 (tagAddress .b2a) tagBundle (.new (tagKeys 0) 7) = (.ok (), A') ∧
    encrypt InMem.host [1] (tagAddress .b2a) 0 zeroReader A' = (.ok out, t) ∧ ∃ pm t', out = (none, some pm) ∧
      decryptPreKey InMem.host pm (tagAddress .a2b) (tagReader 4) (tagRecipient []) = (.ok [1], t') := by
  obtain ⟨A', out, t, hprocess, henc⟩ := tag_sends
  exact ⟨A', out, t, hprocess, henc, first_contact tagX25519_commutes plainAes_inverse zeroKem_correct
    Kem.zeroKyber_correct (tag_introduced [] hprocess) List.not_mem_nil rfl henc (tagKeys_generated 4) (by decide)⟩

end

section
variable [Wire RecordStructure] [Hash] [X25519] [IncrementalKem] [StateCodec] [Aes] [Wire SessionState]
  [Wire PreKeyRecordStructure] [Wire SignedPreKeyRecordStructure] [EdwardsPoints] [Kem.Kyber1024]

/-- A failed call of `DecryptPreKey` leaves the in-memory stores as they were. The exception is a message whose
base key was used, from an address without an identity: the identity of its sender has been recorded. -/
theorem prekey_rejection {m : PreKeySignalMessage} {remote : ProtocolAddress} {rng : Reader} {e : SessionErr}
    {t t' : InMem} (h : decryptPreKey InMem.host m remote rng t = (.error e, t')) :
    t' = t ∨ (e = .store .markKyberPreKeyUsed ∧ Seen t m ∧ t.knownKeys remote = none ∧
      t' = { t with knownKeys := Function.update t.knownKeys remote (some m.identityKey) }) :=
  decryptPreKey_error h

end

section
attribute [local instance] zeroHash tagX25519 zeroKem Spqr.unaryCodec plainAes Kem.zeroKyber freePoints zeroXEdDSA
attribute [local instance] unaryWire

/-- A message for pre-keys that are not there. -/
theorem prekey_rejection_sample : ∃ t', decryptPreKey InMem.host samplePreKeyMessage Stores.samplePeer zeroReader
      (.new Stores.sampleKeys 7) = (.error (.store .signedPreKey), t') ∧ t' = .new Stores.sampleKeys 7 := by
  have h : decryptPreKey InMem.host samplePreKeyMessage Stores.samplePeer zeroReader (.new Stores.sampleKeys 7) =
    (.error (.store .signedPreKey), .new Stores.sampleKeys 7) := rfl
  exact ⟨_, h, (prekey_rejection h).resolve_right fun hused => nomatch hused.1⟩

/-- The first message of the sample initiator, once more: it is rejected, and an identity is recorded. -/
theorem prekey_rejection_recorded : ∃ (pm : PreKeySignalMessage) (t' : InMem),
    decryptPreKey InMem.host pm (tagAddress .a2b) (tagReader 4) (tagRecipient [(tagKeys 0).publicKey]) =
      (.error (.store .markKyberPreKeyUsed), t') ∧ t' ≠ tagRecipient [(tagKeys 0).publicKey] := by
  obtain ⟨A', out, t, hprocess, henc⟩ := tag_sends
  obtain ⟨id, u, l, b, hlinked, hwithin, hidentity, hbase, hkyber, hsigned, hratchet⟩ :=
    (tag_introduced [(tagKeys 0).publicKey] hprocess).linked tagX25519_commutes Kem.zeroKyber_correct
  obtain ⟨pm, working, s', _, hfits, hready⟩ := hlinked.ready tagX25519_commutes plainAes_inverse zeroKem_correct hwithin
    hratchet henc rfl (tagKeys_generated 4) (by decide)
  have hseen : Seen (tagRecipient [(tagKeys 0).publicKey]) pm := by
    rw [hfits.seen_iff, hbase]
    exact List.mem_singleton_self _
  rcases commitPreKey_run pm (tagAddress .a2b) false { working with current := some s' }
    (tagRecipient [(tagKeys 0).publicKey]) with ⟨_, _, hrun⟩ | ⟨hunused, _⟩
  · exact ⟨pm, _, hready.run.trans (bind_run_error hrun), saveIdentity_ne rfl⟩
  · exact absurd ⟨rfl, hseen⟩ hunused

end

end LibSignal.Session
