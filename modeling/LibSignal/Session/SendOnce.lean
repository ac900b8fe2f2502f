import LibSignal.Session.Ledger

/-!
# No message key is used twice for sending

The calls of the session package keep the ledger of a peer and the stored record together
(`keepLedger_booked`), if the store works by value and the generated ratchet keys are distinct.
-/

namespace LibSignal.Session
open Address (ProtocolAddress)
open Chunked (Bytes)
open Crypto Curve Lib Lib.Op Proto Protocol
open Ratchet
open Spqr (StateCodec LoggedSends carried)

/-! ## The calls -/

section
variable [Hash] [StateCodec] {s : SessionState}

lemma initial_loggedSends (dir : Spqr.Direction) (authKey : Bytes) (pk pk' : PublicKey) :
    LoggedSends [] (pqrInitialState dir authKey pk pk') :=
  LoggedSends.initial (p := pqrParams dir authKey pk pk') rfl rfl rfl

variable [X25519]

lemma Ledger.Books.start {L : Ledger} {ro : Roster Nat} {rng : Reader} {pair : KeyPair} {ck : ChainKey}
    (h : L.Books ro) (hpair : generateKeyPair rng = .ok pair) (hpk : s.senderRatchetKey = .ok pair.publicKey)
    (hck : s.senderChainKey = .ok ck) (hindex : ck.index = 0) (hratchet : LoggedSends [] s.pqRatchetState)
    (hkeys : (L.started rng).keys.Nodup) : (L.started rng).Books (ro.promote L.sessions.count s) := by
  have hstarted : L.started rng = { L with
      sessions := L.sessions.promote archivedStatesMaxLength, keys := L.keys ++ [pair.publicKey] } := by
    rw [Ledger.started, Ledger.generatedKey, hpair]
  rw [hstarted] at hkeys ⊢
  refine h.promote hpk hck hindex hratchet fun hmem => ?_
  exact (List.nodup_append.mp hkeys).2.2 _ hmem _ (List.mem_singleton.mpr rfl) rfl

variable [Kem.Kyber1024]

lemma bundleSession_sender {rng : Reader} {coins : Bytes} {now : UInt64} {bundle : PreKeyBundle}
    {identity base : KeyPair} {id : UInt32} (h : bundleSession rng coins now bundle identity base id = .ok s) :
    ∃ pair ck, generateKeyPair rng = .ok pair ∧ s.senderRatchetKey = .ok pair.publicKey ∧
      s.senderChainKey = .ok ck ∧ ck.index = 0 ∧ LoggedSends [] s.pqRatchetState := by
  obtain ⟨s0, pk, hs0, _, rfl⟩ := bundleSession_inv h
  obtain ⟨_, _, _, _, _, _, initial, pair, root, ck, _, _, _, hpair, hcreate, rfl⟩ := initializeAliceSession_inv hs0
  obtain ⟨_, _, _, hstart⟩ := RootKey.createChain_inv hcreate
  refine ⟨pair, ck, hpair, ?_, chainKeyFromProto_toProto ck, by rw [hstart]; rfl, initial_loggedSends _ _ _ _⟩
  change (deserializePublicKey pair.publicKey.serialize).mapError _ = _
  rw [deserializePublicKey_serialize]
  rfl

variable [EdwardsPoints]

lemma NewSession.start {m : PreKeySignalMessage} (h : NewSession m s) :
    s.receiverChains = [] ∧ LoggedSends [] s.pqRatchetState := by
  obtain ⟨_, _, _, _, _, s0, _, hs0, rfl⟩ := h
  have hchains := initializeBobSession_chains hs0
  refine ⟨hchains, ?_⟩
  obtain ⟨_, _, _, _, _, _, _, initial, _, _, _, rfl⟩ := initializeBobSession_inv hs0
  exact initial_loggedSends _ _ _ _

end

section
variable [Hash] [X25519] [IncrementalKem] [StateCodec] [Aes] [Kem.Kyber1024] [EdwardsPoints] [Wire SessionState]
  {L : Ledger} {r : SessionRecord}

variable {m : PreKeySignalMessage} {ptext : Bytes} {rng : Reader} {s s' : SessionState}

omit [IncrementalKem] [Aes] [EdwardsPoints] in
lemma Booked.started {coins : Bytes} {now : UInt64} {bundle : PreKeyBundle} {identity base : KeyPair}
    {id : UInt32} (h : Booked L r) (hs : bundleSession rng coins now bundle identity base id = .ok s)
    (hkeys : (L.started rng).keys.Nodup) : Booked (L.started rng) (r.promoteState s) := by
  obtain ⟨ro, rfl, hro⟩ := h
  obtain ⟨pair, ck, hpair, hpk, hck, hindex, hratchet⟩ := bundleSession_sender hs
  exact ⟨ro.promote L.sessions.count s, (ro.record_promote _ s).symm,
    hro.start hpair hpk hck hindex hratchet hkeys⟩

lemma Booked.created (h : Booked L r) (hs : NewSession m s)
    (hdec : decryptWithState s m.message rng = .ok (ptext, s')) (hkeys : (L.started rng).keys.Nodup) :
    Booked (L.started rng) (r.promoteState s') := by
  obtain ⟨ro, rfl, hro⟩ := h
  obtain ⟨hchains, hlog⟩ := hs.start
  obtain ⟨res, hrecv, hstate⟩ := decryptWithState_ratchet hdec
  have hlog' : LoggedSends [] s'.pqRatchetState := hstate ▸ LoggedSends.recv hlog hrecv
  rcases decryptWithState_sender hdec with ⟨hheld, _⟩ | ⟨_, pair, ck, hpair, hpk, hck, hindex⟩
  · obtain ⟨c, hc, _⟩ := holdsChain_iff.mp hheld
    rw [hchains] at hc
    exact absurd hc List.not_mem_nil
  · exact ⟨ro.promote L.sessions.count s', (ro.record_promote _ s').symm,
      hro.start hpair hpk hck hindex hlog' hkeys⟩

omit [Kem.Kyber1024] [EdwardsPoints] in
lemma Booked.received {m : SignalMessage} (h : Booked L r) (hs : r.current = some s)
    (hdec : decryptWithState s m rng = .ok (ptext, s')) (hkeys : (L.received (some s) m rng).keys.Nodup) :
    Booked (L.received (some s) m rng) { r with current := some s' } := by
  obtain ⟨ro, rfl, hro⟩ := h
  obtain ⟨⟨n, _⟩, he, rfl⟩ := Option.map_eq_some_iff.mp hs
  exact ⟨{ ro with current := some (n, s') }, rfl, hro.receive he hdec hkeys⟩

omit [Kem.Kyber1024] [EdwardsPoints] in
lemma Booked.matched {r' : SessionRecord} (h : Booked L r)
    (hprom : promoteMatchingPreKeySession r m = .ok (true, r')) (hs : r'.current = some s)
    (hdec : decryptWithState s m.message rng = .ok (ptext, s')) (hkeys : (L.opened r m rng).keys.Nodup) :
    Booked (L.opened r m rng) { r' with current := some s' } := by
  obtain ⟨ro, rfl, hro⟩ := h
  rcases ro.find m with ⟨e, ro', hfinds⟩ | ⟨hnone, _⟩
  · cases hfinds.promoted.symm.trans hprom
    have hes : e.2 = s := by
      rw [Roster.record, hfinds.current] at hs
      exact Option.some.inj hs
    rcases hfinds.moved with ⟨hany, rfl⟩ | ⟨hany, i, hfind, he, rfl⟩
    · have hopened : L.opened ro'.record m rng = L.received (some s) m.message rng := by
        rw [Ledger.opened, if_pos hany, hs]
      rw [hopened] at hkeys ⊢
      exact Booked.received ⟨ro', rfl, hro⟩ hs hdec hkeys
    · have hread : (ro.record.previousSessions[i]?).bind unmarshal = some s := by
        rw [Roster.record, List.getElem?_map, he]
        exact (unmarshal_marshal e.2).trans (congrArg some hes)
      have hopened : L.opened ro.record m rng = Ledger.received
          { L with sessions := L.sessions.promoteOld archivedStatesMaxLength i } (some s) m.message rng := by
        rw [Ledger.opened, hany, if_neg Bool.false_ne_true, hfind]
        simp only [hread]
      rw [hopened] at hkeys ⊢
      exact Booked.received ⟨ro.promoteOld i, rfl, hro.promoteOld he⟩ hs hdec hkeys
  · cases hnone.symm.trans hprom

lemma Booked.opened {remote : ProtocolAddress} {V V' : ProtocolAddress → Option SessionRecord}
    (h : Booked L ((V remote).getD .fresh)) (hopens : Opens remote m rng ptext V V')
    (hkeys : (L.opened ((V remote).getD .fresh) m rng).keys.Nodup) :
    Booked (L.opened ((V remote).getD .fresh) m rng) ((V' remote).getD .fresh) := by
  obtain ⟨matched, working, s, s', hprepared, hdec, rfl⟩ := hopens
  rw [Function.update_self, Option.getD_some]
  cases matched with
  | true =>
    obtain ⟨hprom, hs, _⟩ := hprepared
    exact h.matched hprom hs hdec hkeys
  | false =>
    obtain ⟨hprom, rfl, hnew⟩ := hprepared
    obtain ⟨ro, hr, _⟩ := id h
    have hopened : L.opened ((V remote).getD .fresh) m rng = L.started rng := by
      rw [hr] at hprom ⊢
      rcases ro.find m with ⟨e, ro', hfinds⟩ | ⟨_, _, hany, hfind⟩
      · cases hfinds.promoted.symm.trans hprom
      · rw [Ledger.opened, hany, if_neg Bool.false_ne_true, hfind]
    rw [hopened] at hkeys ⊢
    exact h.created hnew hdec hkeys

omit [Kem.Kyber1024] [EdwardsPoints] in
lemma Booked.returned [Wire SignalMessagePB] [Wire PreKeySignalMessagePB]
    {out : Option SignalMessage × Option PreKeySignalMessage} (h : Booked L r) (hs : r.current = some s)
    (hstep : SessionStep s (.sent out) s') (hfew : (L.returned out).Few) :
    Booked (L.returned out) { r with current := some s' } := by
  obtain ⟨ro, rfl, hro⟩ := h
  obtain ⟨⟨n, _⟩, he, rfl⟩ := Option.map_eq_some_iff.mp hs
  obtain ⟨m, _, hm, _⟩ := hstep.sent_inv
  have hreturned : L.returned out = L.addSent n m := by
    rw [Ledger.returned, hm, hro.numbers.current, he]
    rfl
  rw [hreturned] at hfew ⊢
  exact ⟨{ ro with current := some (n, s') }, rfl, hro.send he hstep hm hfew⟩

end

/-! ## Runs -/

def Ledger.Extends (L' L : Ledger) : Prop := (∃ ms, L'.sent = L.sent ++ ms) ∧ ∃ ks, L'.keys = L.keys ++ ks

namespace Ledger.Extends
variable {L L' : Ledger}

lemma refl (L : Ledger) : L.Extends L := ⟨⟨[], (List.append_nil _).symm⟩, [], (List.append_nil _).symm⟩

lemma started [X25519] (L : Ledger) (rng : Reader) : (L.started rng).Extends L :=
  ⟨⟨[], (List.append_nil _).symm⟩, _, rfl⟩

lemma received [X25519] (L : Ledger) (s : Option SessionState) (m : SignalMessage) (rng : Reader) :
    (L.received s m rng).Extends L :=
  ⟨⟨[], (List.append_nil _).symm⟩, _, rfl⟩

lemma opened [X25519] [Wire SessionState] (L : Ledger) (r : SessionRecord) (m : PreKeySignalMessage) (rng : Reader) :
    (L.opened r m rng).Extends L := by
  rw [Ledger.opened]
  split
  · exact received L _ _ _
  · split
    · exact received { L with sessions := _ } _ _ _
    · exact started L rng

lemma keys_nodup (h : L'.Extends L) (hkeys : L'.keys.Nodup) : L.keys.Nodup := by
  obtain ⟨_, ks, hks⟩ := h
  rw [hks] at hkeys
  exact hkeys.of_append_left

lemma few (h : L'.Extends L) (hfew : L'.Few) : L.Few := by
  obtain ⟨⟨ms, hms⟩, _⟩ := h
  have hsub : L.sent.Sublist L'.sent := hms ▸ List.sublist_append_left _ _
  refine ⟨fun k => lt_of_le_of_lt ?_ (hfew.1 k), fun n ep => lt_of_le_of_lt ?_ (hfew.2 n ep)⟩
  · exact ((hsub.filter _).map _).length_le
  · exact ((hsub.filter _).map _).countP_le

end Ledger.Extends

section
variable [Hash] [X25519] [IncrementalKem] [StateCodec] [Aes] [Kem.Kyber1024] [EdwardsPoints] [XEdDSA]
  [Wire SessionState] [Wire PreKeyRecordStructure] [Wire SignedPreKeyRecordStructure] [Wire RecordStructure]
  [Wire SignalMessagePB] [Wire PreKeySignalMessagePB]
variable {σ : Type} {host : Host σ} {view : σ → ProtocolAddress → Option SessionRecord} {remote : ProtocolAddress}

lemma PeerCall.exec_extends (host : Host σ) (view : σ → ProtocolAddress → Option SessionRecord)
    (remote : ProtocolAddress) (c : PeerCall) (x : Ledger × σ) : (c.exec host view remote x).1.Extends x.1 := by
  cases c with
  | processPreKeyBundle rng coins now bundle =>
    rw [PeerCall.exec]
    split
    · exact .started _ _
    · exact .refl _
  | encrypt plaintext now rng =>
    rw [PeerCall.exec]
    split
    · exact ⟨⟨_, rfl⟩, [], (List.append_nil _).symm⟩
    · exact .refl _
  | decrypt m rng =>
    rw [PeerCall.exec]
    split
    · exact .received _ _ _ _
    · exact .refl _
  | decryptPreKey m rng =>
    rw [PeerCall.exec]
    split
    · exact .opened _ _ _ _
    · exact .refl _

lemma PeerCall.exec_booked (hv : host.ByValue view) (c : PeerCall) {L : Ledger} {t : σ}
    (h : Booked L ((view t remote).getD .fresh)) (hkeys : (c.exec host view remote (L, t)).1.keys.Nodup)
    (hfew : (c.exec host view remote (L, t)).1.Few) :
    Booked (c.exec host view remote (L, t)).1 ((view (c.exec host view remote (L, t)).2 remote).getD .fresh) := by
  cases c with
  | processPreKeyBundle rng coins now bundle =>
    have htriple := triple_processPreKeyBundle_view hv remote rng coins now bundle t (Eq.refl (view t))
    rw [PeerCall.exec] at hkeys hfew ⊢
    split at hkeys
    · obtain ⟨identity, base, id, s, _, hs, hview⟩ := htriple.1 _ _ ‹_›
      rw [hview, Function.update_self]
      exact h.started hs hkeys
    · exact htriple.2 _ _ ‹_› ▸ h
  | encrypt plaintext now rng =>
    have htriple := triple_encrypt_view hv remote plaintext now rng t (Eq.refl (view t))
    rw [PeerCall.exec] at hkeys hfew ⊢
    split at hfew
    · obtain ⟨r, s, s', hr, hs, hstep, hview⟩ := htriple.1 _ _ ‹_›
      rw [hview, Function.update_self]
      rw [hr] at h
      exact h.returned hs hstep hfew
    · exact htriple.2 _ _ ‹_› ▸ h
  | decrypt m rng =>
    have htriple := triple_decrypt_view hv remote m rng t (Eq.refl (view t))
    rw [PeerCall.exec] at hkeys hfew ⊢
    split at hkeys
    · obtain ⟨r, s, s', hr, hs, hdec, hview⟩ := htriple.1 _ _ ‹_›
      have hcur : (view t remote).bind (·.current) = some s := by
        rw [hr]
        exact hs
      rw [hview, Function.update_self, hcur]
      rw [hcur] at hkeys
      rw [hr] at h
      exact h.received hs hdec hkeys
    · exact htriple.2 _ _ ‹_› ▸ h
  | decryptPreKey m rng =>
    have htriple := triple_decryptPreKey_view hv remote m rng t (Eq.refl (view t))
    rw [PeerCall.exec] at hkeys hfew ⊢
    split at hkeys
    · exact h.opened (htriple.1 _ _ ‹_›) hkeys
    · exact htriple.2 _ _ ‹_› ▸ h

lemma keepLedger_booked (hv : host.ByValue view) (calls : List PeerCall) {t : σ}
    (ht : (view t remote).getD .fresh = .fresh) (hkeys : (keepLedger host view remote calls t).1.keys.Nodup)
    (hfew : (keepLedger host view remote calls t).1.Few) : Booked (keepLedger host view remote calls t).1
      ((view (keepLedger host view remote calls t).2 remote).getD .fresh) := by
  induction calls using List.reverseRecOn with
  | nil => exact ⟨.empty, ht, Ledger.empty_books⟩
  | append_singleton calls c ih =>
    have hrun : keepLedger host view remote (calls ++ [c]) t =
        c.exec host view remote (keepLedger host view remote calls t) := List.foldl_concat ..
    rw [hrun] at hkeys hfew ⊢
    have hextends := PeerCall.exec_extends host view remote c (keepLedger host view remote calls t)
    exact c.exec_booked hv (ih (hextends.keys_nodup hkeys) (hextends.few hfew)) hkeys hfew

omit [Hash] [X25519] [IncrementalKem] [StateCodec] [Aes] [Kem.Kyber1024] [EdwardsPoints] [XEdDSA]
  [Wire SessionState] [Wire PreKeyRecordStructure] [Wire SignedPreKeyRecordStructure] [Wire RecordStructure]
  [Wire SignalMessagePB] [Wire PreKeySignalMessagePB] in
lemma Ledger.Sound.nodup {L : Ledger} (h : L.Sound) :
    (L.sent.map fun e => (e.2.senderRatchet, e.2.counter)).Nodup := by
  rw [List.Nodup, List.pairwise_map, List.pairwise_iff_getElem]
  intro i j hi hj hij heq
  obtain ⟨hkey, hcounter⟩ := Prod.mk.inj heq
  have hnodup : (L.counters L.sent[i].2.senderRatchet).Nodup := by
    rw [h.counters]
    exact List.nodup_range
  rw [Ledger.counters, List.Nodup, List.pairwise_map, List.pairwise_filter, List.pairwise_iff_getElem] at hnodup
  exact hnodup i j hi hj hij (decide_eq_true rfl) (decide_eq_true hkey.symm) (congrArg UInt32.toNat hcounter)

/-- In every run of calls for a peer without a session before, with a session store that works by value: if the
generated ratchet keys are distinct and each sending chain has fewer than `2^32` messages, then no two messages
that `Encrypt` returned have the same ratchet key and counter, the counters of each key count up from 0, and no two
messages of one session carry the same epoch and index of the post-quantum ratchet. -/
theorem sending_unique (hv : host.ByValue view) (calls : List PeerCall) {t : σ}
    (ht : (view t remote).getD .fresh = .fresh) (hkeys : (keepLedger host view remote calls t).1.keys.Nodup)
    (hfew : (keepLedger host view remote calls t).1.Few) :
    ((keepLedger host view remote calls t).1.sent.map fun e => (e.2.senderRatchet, e.2.counter)).Nodup ∧
    (∀ k, (keepLedger host view remote calls t).1.counters k =
      List.range ((keepLedger host view remote calls t).1.counters k).length) ∧
    (∀ n, ((keepLedger host view remote calls t).1.pairs n).Nodup) ∧
    ∀ e ∈ (keepLedger host view remote calls t).1.sent, e.1.isSome ∧ (carried e.2.pqRatchet).isSome := by
  obtain ⟨_, _, hbooks⟩ := keepLedger_booked hv calls ht hkeys hfew
  refine ⟨hbooks.sound.nodup, hbooks.sound.counters, hbooks.sound.pairs, fun e he => ⟨?_, hbooks.sound.carries e he⟩⟩
  obtain ⟨n, _, hn⟩ := hbooks.sound.numbered e he
  rw [hn]
  rfl

end

section
attribute [local instance] zeroHash oneX25519 zeroKem Spqr.unaryCodec plainAes Kem.zeroKyber freePoints zeroXEdDSA
attribute [local instance] unaryWire

def sampleCalls : List PeerCall :=
  [.processPreKeyBundle (fun _ => zeroReader) [] 0 Stores.sampleBundle, .encrypt [1] 0 zeroReader]

lemma sampleCalls_ledger : ∃ m, m.counter = 0 ∧ (keepLedger Stores.InMem.host Stores.InMem.records
    Stores.samplePeer sampleCalls (.new Stores.sampleKeys 7)).1 =
      (Ledger.empty.started zeroReader).addSent 0 m := by
  obtain ⟨s, authKey, pk, pk', hs, hratchet, hsample⟩ := sampleSession_begun
  let known : Stores.InMem := { Stores.InMem.new Stores.sampleKeys 7 with
    knownKeys := Function.update (fun _ => none) Stores.samplePeer (some Stores.sampleKeys.publicKey) }
  have hprocess : processPreKeyBundle Stores.InMem.host (fun _ => zeroReader) [] 0 Stores.samplePeer
      Stores.sampleBundle (.new Stores.sampleKeys 7) =
        (.ok (), (Stores.InMem.storeSession Stores.samplePeer ⟨some s, []⟩ known).2) := by
    cases hs
    rfl
  have hknown : known.knownKeys Stores.samplePeer = some Stores.sampleKeys.publicKey :=
    Function.update_self Stores.samplePeer (some Stores.sampleKeys.publicKey) fun _ => none
  obtain ⟨out, b', _, hexec, m, hm, _, hcounter⟩ := sample_exec known hknown 0
    (b := s.pqRatchetState) (hratchet ▸ canSend_initial .a2b authKey pk pk')
  rw [sampleStores, hsample, Exchange.exec] at hexec
  split at hexec
  · rename_i out' t' hencrypt
    cases hexec
    refine ⟨m, hcounter, ?_⟩
    rw [keepLedger, sampleCalls, List.foldl_cons, List.foldl_cons, List.foldl_nil, PeerCall.exec, PeerCall.exec,
      hprocess]
    dsimp only
    rw [hencrypt]
    dsimp only
    rw [Ledger.returned, hm]
    rfl
  · cases hexec

/-- With the in-memory stores a bundle is processed and a message sent. -/
theorem sending_unique_sample : ∃ m, (keepLedger Stores.InMem.host Stores.InMem.records Stores.samplePeer
    sampleCalls (.new Stores.sampleKeys 7)).1.sent = [(some 0, m)] ∧ m.counter = 0 ∧
      (carried m.pqRatchet).isSome := by
  obtain ⟨m, hcounter, hledger⟩ := sampleCalls_ledger
  have ht : (Stores.InMem.records (.new Stores.sampleKeys 7) Stores.samplePeer).getD .fresh = .fresh := rfl
  have hsent : (keepLedger Stores.InMem.host Stores.InMem.records Stores.samplePeer sampleCalls
      (.new Stores.sampleKeys 7)).1.sent = [(some 0, m)] := by
    rw [hledger]
    rfl
  have hkeys : (keepLedger Stores.InMem.host Stores.InMem.records Stores.samplePeer sampleCalls
      (.new Stores.sampleKeys 7)).1.keys.Nodup := by
    rw [hledger]
    exact List.nodup_singleton _
  have hfew : (keepLedger Stores.InMem.host Stores.InMem.records Stores.samplePeer sampleCalls
      (.new Stores.sampleKeys 7)).1.Few := by
    have hone : ([(some 0, m)] : List (Option Nat × SignalMessage)).length < 2 ^ 32 := by
      rw [List.length_singleton]
      norm_num
    refine ⟨fun k => lt_of_le_of_lt ?_ hone, fun n ep => lt_of_le_of_lt ?_ hone⟩
    · rw [Ledger.counters, hsent, List.length_map]
      exact List.length_filter_le _ _
    · rw [Ledger.pairs, hsent]
      refine List.countP_le_length.trans ?_
      rw [List.length_map]
      exact List.length_filter_le _ _
  have h := (sending_unique Stores.InMem.byValue sampleCalls ht hkeys hfew).2.2.2
  rw [hsent] at h
  exact ⟨m, hsent, hcounter, (h _ (List.mem_singleton.mpr rfl)).2⟩

end

end LibSignal.Session
