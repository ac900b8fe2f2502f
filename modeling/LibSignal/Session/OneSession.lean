import LibSignal.Session.Conversation
import LibSignal.Session.Rejected
import LibSignal.Session.Roster

/-!
# One session for each handshake

The handshake of an initiator is named by its version and base key.
-/

namespace LibSignal.Session
open Address (ProtocolAddress)
open Chunked (Bytes)
open Crypto Curve Lib Lib.Op Proto Protocol
open Spqr (StateCodec)

def SessionState.handshake (s : SessionState) : UInt32 × Bytes := (s.sessionVersion, s.aliceBaseKey)

variable {m : PreKeySignalMessage} {r : SessionRecord} {s : SessionState}

lemma SessionState.handshake_of_parties {s' : SessionState} (h : s'.parties = s.parties) :
    s'.handshake = s.handshake := by
  simp only [SessionState.parties, Prod.mk.injEq] at h
  rw [SessionState.handshake, h.1, h.2.2.2.2.2, SessionState.handshake]

lemma matchesPreKey_iff :
    matchesPreKey m s = true ↔ s.handshake = (m.messageVersion.toUInt32, m.baseKey.serialize) := by
  rw [matchesPreKey, SessionState.handshake, Bool.and_eq_true, beq_iff_eq, beq_iff_eq, Prod.mk.injEq]

section
variable [Hash] [X25519] [StateCodec] [Kem.Kyber1024]

lemma bundleSession_handshake {rng : Reader} {coins : Bytes} {now : UInt64} {bundle : PreKeyBundle}
    {identity base : KeyPair} {id : UInt32} {s : SessionState}
    (h : bundleSession rng coins now bundle identity base id = .ok s) :
    s.handshake = (signalMessageCurrentVersion.toUInt32, base.publicKey.serialize) := by
  obtain ⟨s0, pk, hs0, _, rfl⟩ := bundleSession_inv h
  obtain ⟨_, _, _, _, _, _, _, _, _, _, _, _, _, _, _, rfl⟩ := initializeAliceSession_inv hs0
  rfl

variable [EdwardsPoints]

lemma NewSession.handshake {m : PreKeySignalMessage} {s : SessionState} (h : NewSession m s) :
    s.handshake = (m.messageVersion.toUInt32, m.baseKey.serialize) := by
  obtain ⟨hversion, _, _, _, _, s0, _, hs0, rfl⟩ := h
  obtain ⟨_, _, _, _, _, _, _, _, _, _, _, rfl⟩ := initializeBobSession_inv hs0
  rw [hversion]
  rfl

end

section
variable [Wire SessionState]

def SessionRecord.states (r : SessionRecord) : List SessionState :=
  r.current.toList ++ r.previousSessions.filterMap unmarshal

lemma Roster.states_record {β : Type} (ro : Roster β) : ro.record.states = ro.entries.map (·.2) := by
  have hread : (unmarshal ∘ fun e : β × SessionState => marshal e.2) = fun e => some e.2 :=
    funext fun e => unmarshal_marshal e.2
  rw [SessionRecord.states, Roster.record, Roster.entries, List.map_append, List.filterMap_map, hread,
    List.filterMap_eq_map', Option.toList_map]

structure Roster.Distinct (ro : Roster Unit) : Prop where
  nodup : (ro.settled.map (·.2.handshake)).Nodup
  length_le : ro.archived.length ≤ archivedStatesMaxLength

/-- A record is that of sessions with distinct handshakes. -/
def Distinct (r : SessionRecord) : Prop := ∃ ro : Roster Unit, r = ro.record ∧ ro.Distinct

lemma Roster.handshakes_settled (ro : Roster Unit) :
    ro.settled.map (·.2.handshake) = ro.record.states.map SessionState.handshake := by
  rw [Roster.states_record, Roster.settled, List.map_map, List.map_map]
  rfl

lemma Distinct.nodup (h : Distinct r) : (r.states.map SessionState.handshake).Nodup := by
  obtain ⟨ro, rfl, hro⟩ := h
  rw [← Roster.handshakes_settled]
  exact hro.nodup

lemma distinct_fresh : Distinct .fresh :=
  ⟨.empty, rfl, List.nodup_nil, Nat.zero_le _⟩

lemma Distinct.withCurrent {s' : SessionState} (h : Distinct r) (hs : r.current = some s)
    (hsame : s'.handshake = s.handshake) : Distinct { r with current := some s' } := by
  obtain ⟨ro, rfl, hro⟩ := h
  obtain ⟨e, he, rfl⟩ := Option.map_eq_some_iff.mp hs
  refine ⟨{ ro with current := some ((), s') }, rfl, ?_, hro.length_le⟩
  have hnodup := hro.nodup
  rw [Roster.handshakes_settled, Roster.states_record, Roster.entries, he] at hnodup
  rw [Roster.handshakes_settled, Roster.states_record, Roster.entries]
  change (s'.handshake :: _).Nodup
  rw [hsame]
  exact hnodup

lemma Distinct.promoteState (h : Distinct r) (hnew : ∀ s' ∈ r.states, s'.handshake ≠ s.handshake) :
    Distinct (r.promoteState s) := by
  obtain ⟨ro, rfl, hro⟩ := h
  refine ⟨ro.promote () s, (ro.record_promote () s).symm, ?_, Roster.archive_length_le hro.length_le⟩
  have hsub := (Roster.archive_settled ro).map (·.2.handshake)
  rw [Roster.promote_settled, List.map_cons, List.nodup_cons]
  refine ⟨fun hmem => ?_, hro.nodup.sublist hsub⟩
  have hmem := hsub.mem hmem
  rw [Roster.handshakes_settled] at hmem
  obtain ⟨s', hs', heq⟩ := List.mem_map.mp hmem
  exact hnew s' hs' heq

lemma Distinct.promoteMatching {r' : SessionRecord} (h : Distinct r)
    (hprom : promoteMatchingPreKeySession r m = .ok (true, r')) : Distinct r' := by
  obtain ⟨ro, rfl, hro⟩ := h
  rcases ro.find m with ⟨e, ro', hfinds⟩ | ⟨hnone, _⟩
  · cases hfinds.promoted.symm.trans hprom
    refine ⟨ro', rfl, ?_, hfinds.length_le hro.length_le⟩
    exact ((hfinds.settled hro.length_le).map _).nodup_iff.mpr hro.nodup
  · cases hnone.symm.trans hprom

lemma Distinct.no_match (h : Distinct r) (hprom : promoteMatchingPreKeySession r m = .ok (false, r)) :
    ∀ s ∈ r.states, matchesPreKey m s = false := by
  obtain ⟨ro, rfl, hro⟩ := h
  rcases ro.find m with ⟨e, ro', hfinds⟩ | ⟨_, hnone, _⟩
  · cases hfinds.promoted.symm.trans hprom
  · intro s hs
    rw [Roster.states_record] at hs
    obtain ⟨e, he, rfl⟩ := List.mem_map.mp hs
    exact hnone e he

lemma Distinct.finds (h : Distinct r) (hs : s ∈ r.states) (hm : matchesPreKey m s = true) :
    (∀ s' ∈ r.states, matchesPreKey m s' = true → s' = s) ∧
    ∃ r', promoteMatchingPreKeySession r m = .ok (true, r') ∧ r'.current = some s ∧
      (r'.states.map SessionState.clearUnacknowledgedPreKeyMessage).Perm
        (r.states.map SessionState.clearUnacknowledgedPreKeyMessage) := by
  have honly : ∀ s' ∈ r.states, matchesPreKey m s' = true → s' = s := fun s' hs' hm' =>
    List.inj_on_of_nodup_map h.nodup hs' hs ((matchesPreKey_iff.mp hm').trans (matchesPreKey_iff.mp hm).symm)
  refine ⟨honly, ?_⟩
  obtain ⟨ro, rfl, hro⟩ := h
  rcases ro.find m with ⟨e, ro', hfinds⟩ | ⟨_, hnone, _⟩
  · have hmem : e.2 ∈ ro.record.states := by
      rw [Roster.states_record]
      exact List.mem_map_of_mem hfinds.mem
    refine ⟨ro'.record, hfinds.promoted, ?_, ?_⟩
    · rw [← honly e.2 hmem hfinds.isMatch, Roster.record, hfinds.current]
      rfl
    · have hperm := (hfinds.settled hro.length_le).map (·.2)
      rw [Roster.settled, Roster.settled, List.map_map, List.map_map] at hperm
      rw [Roster.states_record, Roster.states_record, List.map_map, List.map_map]
      exact hperm
  · rw [Roster.states_record] at hs
    obtain ⟨e, he, rfl⟩ := List.mem_map.mp hs
    rw [hnone e he] at hm
    cases hm

/-! ## The calls -/

variable [Hash] [X25519] [StateCodec] [Kem.Kyber1024] [EdwardsPoints] [IncrementalKem] [Aes]

/-- A base key is not that of a session in the record. -/
def FreshBase (r : SessionRecord) (base : KeyPair) : Prop :=
  ∀ s ∈ r.states, s.aliceBaseKey ≠ base.publicKey.serialize

lemma distinct_closed : RecordClosed FreshBase Distinct where
  fresh := distinct_fresh
  sent := by
    intro r s s' rng out h hs hsend
    obtain ⟨_, _, _, rfl⟩ := SessionState.pqRatchetSend_inv hsend
    exact h.withCurrent hs rfl
  advanced := by
    intro r s s' ck h hs hset
    obtain ⟨_, _, rfl⟩ := SessionState.setSenderChainKey_inv hset
    exact h.withCurrent hs rfl
  received := fun h hs hdec =>
    h.withCurrent hs (SessionState.handshake_of_parties (decryptWithState_parties hdec).1)
  matched := fun h hprom => h.promoteMatching hprom
  created := by
    intro r m s h hprom hnew
    refine h.promoteState fun s' hs' hsame => ?_
    have hmatch : matchesPreKey m s' = true := matchesPreKey_iff.mpr (hsame.trans hnew.handshake)
    rw [h.no_match hprom s' hs'] at hmatch
    cases hmatch
  started := by
    intro r rng coins now bundle identity base id s h hfresh hs
    refine h.promoteState fun s' hs' hsame => hfresh s' hs' ?_
    rw [bundleSession_handshake hs] at hsame
    exact congrArg Prod.snd hsame
  built := fun {_ s} _ => ⟨⟨some ((), s), []⟩, rfl, List.nodup_singleton _, Nat.zero_le _⟩

lemma RecordClosed.at {A : SessionRecord → KeyPair → Prop} {Q : SessionRecord → Prop} (hQ : RecordClosed A Q)
    (remote a : ProtocolAddress) : RecordClosed A fun r => a = remote → Q r where
  fresh := fun _ => hQ.fresh
  sent := fun h hs hsend ha => hQ.sent (h ha) hs hsend
  advanced := fun h hs hset ha => hQ.advanced (h ha) hs hset
  received := fun h hs hdec ha => hQ.received (h ha) hs hdec
  matched := fun h hprom ha => hQ.matched (h ha) hprom
  created := fun h hprom hnew ha => hQ.created (h ha) hprom hnew
  started := fun h hA hs ha => hQ.started (h ha) hA hs
  built := fun hs _ => hQ.built hs

lemma Opens.matched {remote : ProtocolAddress} {m : PreKeySignalMessage} {rng : Reader} {ptext : Bytes}
    {V V' : ProtocolAddress → Option SessionRecord} {r r' : SessionRecord} {s : SessionState}
    (h : Opens remote m rng ptext V V') (hr : V remote = some r)
    (hprom : promoteMatchingPreKeySession r m = .ok (true, r')) (hs : r'.current = some s) :
    ∃ s', decryptWithState s m.message rng = .ok (ptext, s') ∧
      V' remote = some { r' with current := some s' } := by
  obtain ⟨matched, working, s1, s', hprepared, hdec, rfl⟩ := h
  rw [hr] at hprepared
  cases matched with
  | false => cases hprepared.1.symm.trans hprom
  | true =>
    cases hprepared.1.symm.trans hprom
    cases hprepared.2.1.symm.trans hs
    exact ⟨s', hdec, Function.update_self ..⟩

variable [Wire PreKeyRecordStructure] [Wire SignedPreKeyRecordStructure] [Wire RecordStructure] [XEdDSA]
  [Wire SignalMessagePB] [Wire PreKeySignalMessagePB]
variable {σ : Type} {host : Host σ} {view : σ → ProtocolAddress → Option SessionRecord} {remote : ProtocolAddress}

lemma runCalls_distinct (hc : host.Contract view) (calls : List Call) {t : σ}
    (ht : (view t remote).getD .fresh = .fresh) (hfresh : AllowedRun host view FreshBase calls t)
    {r : SessionRecord} (hr : view (runCalls host calls t) remote = some r) : Distinct r := by
  refine RecordClosed.calls (fun a => distinct_closed.at remote a) hc calls ?_ hfresh remote r hr rfl
  rintro a r0 hr0 rfl
  rw [hr0] at ht
  cases ht
  exact distinct_fresh

/-- No two sessions of a record that began empty have the same handshake, after any calls with fresh base keys.
-/
theorem one_session_per_handshake (hc : host.Contract view) (calls : List Call) {t : σ}
    (ht : (view t remote).getD .fresh = .fresh) (hfresh : AllowedRun host view FreshBase calls t)
    {r : SessionRecord} (hr : view (runCalls host calls t) remote = some r) :
    (r.states.map SessionState.handshake).Nodup ∧ ∀ m s, s ∈ r.states → matchesPreKey m s = true →
      (∀ s' ∈ r.states, matchesPreKey m s' = true → s' = s) ∧
      ∃ r', promoteMatchingPreKeySession r m = .ok (true, r') ∧ r'.current = some s ∧
        (r'.states.map SessionState.clearUnacknowledgedPreKeyMessage).Perm
          (r.states.map SessionState.clearUnacknowledgedPreKeyMessage) ∧
        ∀ rng res t', decryptPreKey host m remote rng (runCalls host calls t) = (res, t') →
          (∃ e, res = .error e ∧ view t' remote = some r) ∨
          ∃ ptext s', decryptWithState s m.message rng = .ok (ptext, s') ∧
            view t' remote = some { r' with current := some s' } ∧ (res = .ok ptext ∨ ∃ e, res = .error e) := by
  have hdistinct := runCalls_distinct hc calls ht hfresh hr
  refine ⟨hdistinct.nodup, fun m s hs hm => ?_⟩
  obtain ⟨honly, r', hprom, hcur, hperm⟩ := hdistinct.finds hs hm
  refine ⟨honly, r', hprom, hcur, hperm, fun rng res t' hrun => ?_⟩
  have htriple := triple_decryptPreKey_stores hc (.contract hc remote) m rng _ (Eq.refl (view (runCalls host calls t)))
  cases res with
  | ok ptext =>
    obtain ⟨s', hdec, hview⟩ := (htriple.1 ptext t' hrun).matched hr hprom hcur
    exact .inr ⟨ptext, s', hdec, hview, .inl rfl⟩
  | error e =>
    rcases htriple.2 e t' hrun with hsame | ⟨r1, ptext, hsame | hstored, hopens⟩
    · exact .inl ⟨e, rfl, hsame ▸ hr⟩
    · exact .inl ⟨e, rfl, hsame ▸ hr⟩
    · -- the session was written although the call failed
      obtain ⟨s', hdec, hview⟩ := hopens.matched hr hprom hcur
      exact .inr ⟨ptext, s', hdec, hstored ▸ hview, .inr ⟨e, rfl⟩⟩

end

section
attribute [local instance] zeroHash oneX25519 zeroKem Spqr.unaryCodec plainAes Kem.zeroKyber freePoints zeroXEdDSA
attribute [local instance] unaryWire

/-- With the in-memory stores, the session of a bundle is the one that the messages of its handshake get. -/
theorem one_session_of_bundle :
    ∃ s, (runCalls Stores.InMem.host [.processPreKeyBundle (fun _ => zeroReader) [] 0 Stores.samplePeer
        Stores.sampleBundle] (.new Stores.sampleKeys 7)).records Stores.samplePeer = some ⟨some s, []⟩ ∧
      matchesPreKey samplePreKeyMessage s = true ∧
      ∃ r', promoteMatchingPreKeySession ⟨some s, []⟩ samplePreKeyMessage = .ok (true, r') ∧ r'.current = some s := by
  obtain ⟨s, t, hs, hrun, hrecords⟩ := Stores.sample_processed
  have hview : (runCalls Stores.InMem.host [.processPreKeyBundle (fun _ => zeroReader) [] 0 Stores.samplePeer
      Stores.sampleBundle] (.new Stores.sampleKeys 7)).records Stores.samplePeer = some ⟨some s, []⟩ := by
    rw [← hrecords]
    exact congrArg (fun x => Stores.InMem.records x Stores.samplePeer) (congrArg Prod.snd hrun)
  have hmatch : matchesPreKey samplePreKeyMessage s = true := matchesPreKey_iff.mpr (bundleSession_handshake hs)
  have hfresh : AllowedRun Stores.InMem.host Stores.InMem.records FreshBase
      [.processPreKeyBundle (fun _ => zeroReader) [] 0 Stores.samplePeer Stores.sampleBundle]
      (.new Stores.sampleKeys 7) :=
    ⟨fun _ _ _ h => absurd h List.not_mem_nil, trivial⟩
  have h := one_session_per_handshake Stores.InMem.contract _ rfl hfresh hview
  obtain ⟨_, r', hprom, hcur, _⟩ := h.2 samplePreKeyMessage s (List.mem_singleton.mpr rfl) hmatch
  exact ⟨s, hview, hmatch, r', hprom, hcur⟩

end

end LibSignal.Session
