import LibSignal.Session.Delivery
import LibSignal.Session.Replayed

/-!
# The session calls with the in-memory stores

What the calls do to the session that is stored for a peer: `processPreKeyBundle_inv` and `encrypt_writes` for the
sender, `openEnvelope_ok` and `openEnvelope_run` for a receiver that uses `DecryptPreKey` for pre-key messages and
`Decrypt` for the others.
-/

namespace LibSignal.Session
open Address (ProtocolAddress)
open Chunked (Bytes)
open Crypto Curve Lib Lib.Op Proto Protocol Stores
open Spqr (StateCodec)

abbrev Envelope := Option SignalMessage × Option PreKeySignalMessage

lemma SessionStep.sent_version [Hash] [IncrementalKem] [StateCodec] [Aes] [X25519] [Wire SignalMessagePB]
    [Wire PreKeySignalMessagePB] {s s' : SessionState} {out : Envelope} {pm : PreKeySignalMessage}
    (h : SessionStep s (.sent out) s') (hpm : out.2 = some pm) : pm.messageVersion = s.sessionVersion.toUInt8 := by
  cases h with
  | sent hkeys hsend hbuild hset =>
    obtain ⟨_, _, _, rfl⟩ := SessionState.pqRatchetSend_inv hsend
    obtain ⟨_, _, _, signal, _, _, _, _, hwrap⟩ := buildMessage_inv hbuild
    rw [wrapPreKey] at hwrap
    split at hwrap
    · cases hwrap
      cases hpm
    · split at hwrap
      · cases hwrap
      · obtain ⟨base, _, hwrap⟩ := bind_eq_ok hwrap
        cases hwrap
        cases hpm
        rfl

section
variable [Wire RecordStructure] {remote : ProtocolAddress} {rng : Reader} {t t' : InMem} {s s' : SessionState}
  {r : SessionRecord} {m : SignalMessage} {ptext : Bytes} {out : Envelope}

lemma loadSession_of_records (h : t.records remote = some r) : InMem.loadSession remote t = (.ok (some r), t) := by
  obtain ⟨raw, hraw, hr⟩ := Option.bind_eq_some_iff.mp h
  rw [InMem.loadSession, hraw]
  dsimp only
  split
  · rename_i hr'
    rw [hr'] at hr
    cases hr
  · rename_i r' hr'
    rw [hr'] at hr
    cases hr
    rfl

def currentSession (t : InMem) (remote : ProtocolAddress) : Option SessionState :=
  (t.records remote).bind (·.current)

lemma currentSession_store {V : ProtocolAddress → Option SessionRecord}
    (h : t.records = Function.update V remote (some { r with current := some s })) :
    currentSession t remote = some s := by
  rw [currentSession, h, Function.update_self]
  rfl

lemma currentSession_none (h : t.sessions remote = none) : currentSession t remote = none := by
  rw [currentSession, InMem.records, h]
  rfl

section
variable [Hash] [X25519] [StateCodec] [Wire SessionState] [Wire PreKeyRecordStructure]
  [Wire SignedPreKeyRecordStructure] [EdwardsPoints] [Kem.Kyber1024]

lemma preKeyRecord_current {pm : PreKeySignalMessage} (hs : r.current = some s) (hmatch : matchesPreKey pm s = true)
    (hid : s.remoteIdentityPublic = pm.identityKey.serialize) :
    preKeyRecord InMem.host pm r t = (.ok (true, r, s), t) := by
  have hprom : promoteMatchingPreKeySession r pm = .ok (true, r) := by
    rw [promoteMatchingPreKeySession, hs, if_pos (show (some s).any (matchesPreKey pm) = true from hmatch)]
  rw [preKeyRecord, hprom, bind_run_ok (lift_run _ _)]
  simp only [hs, hid, deserializePublicKey_serialize, PublicKey.equal_iff.mpr rfl]
  rfl

lemma preKeyRecord_fresh {pm : PreKeySignalMessage} (h : recipientPreKeyState InMem.host pm t = (.ok s, t)) :
    preKeyRecord InMem.host pm .fresh t = (.ok (false, SessionRecord.fresh.promoteState s, s), t) := by
  have hprom : promoteMatchingPreKeySession .fresh pm = .ok (false, .fresh) := rfl
  rw [preKeyRecord, hprom, bind_run_ok (lift_run _ _)]
  exact bind_run_ok h

end

variable [Hash] [StateCodec]

lemma processPreKeyBundle_inv [X25519] [Kem.Kyber1024] [XEdDSA] [Wire SessionState] {A A' : InMem} {rng : Readers}
    {coins : Bytes} {now : UInt64} {bundle : PreKeyBundle}
    (h : processPreKeyBundle InMem.host rng coins now remote bundle A = (.ok (), A')) :
    ∃ base s, generateKeyPair (rng 0) = .ok base ∧
      bundleSession (rng 1) coins now bundle A.keyPair base A.registrationID = .ok s ∧
      currentSession A' remote = some s := by
  obtain ⟨trusted, t1, htrust, hrun⟩ := Op.bind_ok h
  have hA := InMem.isTrustedIdentity_state remote bundle.identityKey .sending A
  rw [show InMem.isTrustedIdentity _ _ _ A = _ from mapErr_ok htrust] at hA
  obtain rfl : t1 = A := hA
  split at hrun
  · cases hrun
  split at hrun
  · cases hrun
  split at hrun
  · cases hrun
  obtain ⟨loaded, t2, hload, hwork⟩ := Op.bind_ok hrun
  obtain rfl := (InMem.loadSession_run _ _ _ _ (mapErr_ok hload)).1
  obtain ⟨identity, t3, hident, hwork⟩ := Op.bind_ok hwork
  cases hident
  obtain ⟨registration, t4, hreg, hwork⟩ := Op.bind_ok hwork
  cases hreg
  obtain ⟨base, hbase, hwork⟩ := lift_bind_ok hwork
  obtain ⟨s, hs, hwork⟩ := lift_bind_ok hwork
  obtain ⟨_, t5, _, hwork⟩ := Op.bind_ok hwork
  obtain ⟨_, t6, _, hstore⟩ := Op.bind_ok hwork
  refine ⟨base, s, mapError_eq_ok hbase, hs, ?_⟩
  exact currentSession_store (InMem.contract.storeSession_ok _ _ _ _ (mapErr_ok hstore))

variable [IncrementalKem] [Aes]

lemma encrypt_writes [X25519] [Wire SignalMessagePB] [Wire PreKeySignalMessagePB] {plaintext : Bytes} {now : Int}
    (h : encrypt InMem.host plaintext remote now rng t = (.ok out, t')) :
    ∃ m s s', signalOf out = some m ∧ currentSession t remote = some s ∧ currentSession t' remote = some s' ∧
      Writes s plaintext m s' ∧
      SessionStep s (.sent out) s' := by
  obtain ⟨stored, t1, hload, h⟩ := Op.bind_ok h
  have hstored := (InMem.loadSession_run _ _ _ _ (mapErr_ok hload)).2 stored rfl
  cases stored with
  | none => cases h
  | some r =>
    cases hs : r.current with
    | none => simp only [hs] at h; cases h
    | some s =>
      simp only [hs] at h
      obtain ⟨⟨senderID, receiverID, ck⟩, hkeys, h⟩ := lift_bind_ok h
      obtain ⟨⟨⟨pqrMsg, pqrKey⟩, s1⟩, hsend, h⟩ := lift_bind_ok h
      obtain ⟨_, _, _, h⟩ := Op.bind_ok h
      obtain ⟨out', hbuild, h⟩ := lift_bind_ok h
      obtain ⟨trusted, _, _, h⟩ := Op.bind_ok h
      split at h
      · cases h
      obtain ⟨_, _, _, h⟩ := Op.bind_ok h
      obtain ⟨s', hset, h⟩ := lift_bind_ok h
      obtain ⟨_, _, _, h⟩ := Op.bind_ok h
      obtain ⟨_, _, hstore, h⟩ := Op.bind_ok h
      cases h
      obtain ⟨_, _, _, m, _, _, _, _, hwrap⟩ := buildMessage_inv hbuild
      have hm := wrapPreKey_signal hwrap
      refine ⟨m, s, s', hm, by rw [currentSession, ← hstored]; exact hs, ?_,
        ⟨_, _, _, _, _, _, _, _, _, hkeys, hsend, hbuild, hm, hset⟩, .sent hkeys hsend hbuild hset⟩
      exact currentSession_store (InMem.contract.storeSession_ok _ _ _ _ (mapErr_ok hstore))

variable [X25519]

lemma decrypt_eq (hr : t.records remote = some r) (hs : r.current = some s) :
    decrypt InMem.host m remote rng t = match decryptWithState s m rng with
      | .ok (ptext, s') => (.ok ptext, (InMem.storeSession remote { r with current := some s' } t).2)
      | .error e => (.error e, t) := by
  have hload : InMem.host.loadSession remote t = (.ok (some r), t) := loadSession_of_records hr
  rw [decrypt, bind_run_ok (storeCall_ok hload)]
  simp only [hs]
  cases decryptWithState s m rng <;> rfl

variable [Wire SessionState] [Wire PreKeyRecordStructure] [Wire SignedPreKeyRecordStructure] [EdwardsPoints]
  [Kem.Kyber1024]

def openEnvelope (remote : ProtocolAddress) (rng : Reader) : Envelope → Op InMem SessionErr Bytes
  | (some m, _) => decrypt InMem.host m remote rng
  | (none, some m) => decryptPreKey InMem.host m remote rng
  | (none, none) => .fail (.sessionNotFound .noRecord)

/-- The session that a message is decrypted with; one that is new has a base key that was not used. -/
def Uses (t : InMem) (remote : ProtocolAddress) (s : SessionState) : Envelope → Prop
  | (some _, _) => currentSession t remote = some s
  | (none, some m) => ∃ stored matched working, InMem.loadSession remote t = (.ok stored, t) ∧
      preKeyRecord InMem.host m (stored.getD .fresh) t = (.ok (matched, working, s), t) ∧
      (matched = false → ¬ Seen t m)
  | (none, none) => False

omit [IncrementalKem] [Aes] in
lemma Uses.unique (h : Uses t remote s out) (h' : Uses t remote s' out) : s = s' := by
  match out with
  | (some _, _) => exact Option.some.inj (h.symm.trans h')
  | (none, some _) =>
    obtain ⟨_, _, _, hload, hprep, _⟩ := h
    obtain ⟨_, _, _, hload', hprep', _⟩ := h'
    cases hload.symm.trans hload'
    cases hprep.symm.trans hprep'
    rfl
  | (none, none) => cases h

lemma openEnvelope_ok (h : Uses t remote s out) (hm : signalOf out = some m)
    (hrun : openEnvelope remote rng out t = (.ok ptext, t')) :
    ∃ s', decryptWithState s m rng = .ok (ptext, s') ∧ currentSession t' remote = some s' := by
  match out with
  | (some m', _) =>
    cases hm
    obtain ⟨r, hr, hs⟩ := Option.bind_eq_some_iff.mp h
    have hrun : decrypt InMem.host m remote rng t = (.ok ptext, t') := hrun
    rw [decrypt_eq hr hs] at hrun
    split at hrun
    · rename_i ptext' s' hdec
      cases hrun
      exact ⟨s', hdec, currentSession_store (InMem.records_store t remote _)⟩
    · cases hrun
  | (none, some pm) =>
    cases hm
    obtain ⟨stored, matched, working, hload, hprep, _⟩ := h
    have hrun : decryptPreKey InMem.host pm remote rng t = (.ok ptext, t') := hrun
    rcases decryptPreKey_ready pm remote rng t with ⟨e, herr⟩ | ⟨matched', working', s1, ptext', s', hready⟩
    · cases herr.symm.trans hrun
    · obtain ⟨stored', hload', hprep'⟩ := hready.prepared
      cases hload.symm.trans hload'
      cases hprep.symm.trans hprep'
      rw [hready.run] at hrun
      obtain ⟨_, _, hcommit, hrun⟩ := Op.bind_ok hrun
      cases hrun
      have hview := (triple_commitPreKey_view InMem.contract (.byValue InMem.byValue) pm matched
        { working with current := some s' } t rfl).1 _ _ hcommit
      exact ⟨s', hready.decrypted, currentSession_store hview⟩
  | (none, none) => cases h

lemma openEnvelope_run (h : Uses t remote s out) (hm : signalOf out = some m) (htrust : ∀ pm, out.2 = some pm →
      InMem.isTrustedIdentity remote pm.identityKey .receiving t = (.ok true, t))
    (hdec : decryptWithState s m rng = .ok (ptext, s')) : ∃ t', openEnvelope remote rng out t = (.ok ptext, t') := by
  match out with
  | (some m', _) =>
    cases hm
    obtain ⟨r, hr, hs⟩ := Option.bind_eq_some_iff.mp h
    change ∃ t', decrypt InMem.host m remote rng t = _
    rw [decrypt_eq hr hs, hdec]
    exact ⟨_, rfl⟩
  | (none, some pm) =>
    cases hm
    obtain ⟨stored, matched, working, hload, hprep, hseen⟩ := h
    have hready : Ready pm remote rng t matched working s ptext s' := ⟨htrust pm rfl, ⟨stored, hload, hprep⟩, hdec⟩
    change ∃ t', decryptPreKey InMem.host pm remote rng t = _
    rw [hready.run]
    rcases commitPreKey_run pm remote matched { working with current := some s' } t with
      ⟨hnew, hused, _⟩ | ⟨_, t', hcommit⟩
    · exact absurd hused (hseen hnew)
    · exact ⟨t', bind_run_ok hcommit⟩
  | (none, none) => cases h

lemma openEnvelope_error {err : SessionErr} (h : openEnvelope remote rng out t = (.error err, t')) :
    t'.records = t.records := by
  match out with
  | (some m, _) => exact ((triple_decrypt_view InMem.byValue remote m rng t rfl).2 _ _ h).symm
  | (none, some pm) => exact ((triple_decryptPreKey_view InMem.byValue remote pm rng t rfl).2 _ _ h).symm
  | (none, none) =>
    cases h
    rfl

end

end LibSignal.Session
