import LibSignal.Session.Conversation
import LibSignal.Spqr.EpochOrder
import LibSignal.Stores.InMem

/-!
# What a failed `Encrypt` leaves behind

`Encrypt` advances the post-quantum ratchet of the loaded record before it builds the message and asks for
trust.
-/

namespace LibSignal.Session
open Address (ProtocolAddress)
open Chunked (Bytes)
open Crypto Curve Lib Lib.Op Proto Protocol
open Ratchet
open Spqr (StateCodec)

variable {σ : Type} {host : Host σ} {view : σ → ProtocolAddress → Option SessionRecord} {remote : ProtocolAddress}

lemma storeCall_ok {α : Type} {c : StoreCall} {x : Op σ Unit α} {t t' : σ} {a : α} (h : x t = (.ok a, t')) :
    storeCall c x t = (.ok a, t') := by
  rw [storeCall, mapErr, h]

lemma storeCall_error {α : Type} {c : StoreCall} {x : Op σ Unit α} {t t' : σ} {e : SessionErr}
    (h : storeCall c x t = (.error e, t')) : e = .store c ∧ x t = (.error (), t') := by
  obtain ⟨_, rfl, hx⟩ := mapErr_error h
  exact ⟨rfl, hx⟩

lemma quiet_run {α : Type} {x : Op σ Unit α} {t t' : σ} {r : Except Unit α} (hx : ∀ t, view (x t).2 = view t)
    (h : x t = (r, t')) : view t' = view t := by
  have hrun := hx t
  rwa [h] at hrun

lemma senderChain_of_key {s : SessionState} {ck : ChainKey} (h : s.senderChainKey = .ok ck) :
    ∃ sc, s.senderChain = some sc := by
  cases hsc : s.senderChain with
  | none =>
    rw [SessionState.senderChainKey, hsc] at h
    cases h
  | some sc => exact ⟨sc, rfl⟩

lemma setSenderChainKey_of_chain {s : SessionState} {sc : Chain} (h : s.senderChain = some sc) (ck : ChainKey) :
    s.setSenderChainKey ck = .ok { s with senderChain := some { sc with chainKey := some (chainKeyToProto ck) } } := by
  rw [SessionState.setSenderChainKey, h]

section
variable [Hash] [IncrementalKem] [StateCodec] {rng : Reader}

/-- The stored sessions are as before when the ratchet of the loaded record was advanced. -/
def Unexposed (host : Host σ) (view : σ → ProtocolAddress → Option SessionRecord) (remote : ProtocolAddress)
    (rng : Reader) (t : σ) : Prop :=
  ∀ r t1 s keys out s1, host.loadSession remote t = (.ok (some r), t1) → r.current = some s →
    sendingKeys s = .ok keys → s.pqRatchetSend rng = .ok (out, s1) →
      view (host.touch remote { r with current := some s1 } t1) = view t

lemma Host.ByValue.unexposed (hv : host.ByValue view) (rng : Reader) (t : σ) :
    Unexposed host view remote rng t := by
  intro r t1 s keys out s1 hload _ _ _
  rw [hv.touch_eq, (hv.loadSession _ _ _ _ hload).1]

lemma unexposed_alias_iff (hc : host.Contract view)
    (halias : ∀ a rec t, view (host.touch a rec t) = Function.update (view t) a (some rec)) (t : σ) :
    Unexposed host view remote rng t ↔ ∀ r t1 s keys out s1, host.loadSession remote t = (.ok (some r), t1) →
      r.current = some s → sendingKeys s = .ok keys → s.pqRatchetSend rng = .ok (out, s1) → s1 = s := by
  refine forall₄_congr fun r t1 s keys => forall₂_congr fun out s1 => forall₄_congr fun hload hs _ _ => ?_
  obtain ⟨hview, hrec⟩ := hc.loadSession _ _ _ _ hload
  have hr := hrec _ rfl
  rw [halias, hview, Function.update_eq_self_iff, ← hr, Option.some.injEq]
  constructor
  · intro heq
    rw [← heq] at hs
    exact Option.some.inj hs
  · rintro rfl
    rw [← hs]

end

section
variable [Hash] [Aes] [Wire SignalMessagePB] [Wire PreKeySignalMessagePB] [IncrementalKem] [StateCodec]
  {plaintext : Bytes} {now : Int} {rng : Reader}

section
variable {t t1 t2 : σ} {r : SessionRecord} {s s1 : SessionState} {senderID receiverID : PublicKey} {ck : ChainKey}
  {pqrMsg pqrKey : Bytes} {out : Option SignalMessage × Option PreKeySignalMessage}
  (hload : host.loadSession remote t = (.ok (some r), t1)) (hs : r.current = some s)
  (hkeys : sendingKeys s = .ok (senderID, receiverID, ck))
  (hsend : s.pqRatchetSend rng = .ok ((pqrMsg, pqrKey), s1))
  (hbuild : buildMessage s1 senderID receiverID ck pqrMsg pqrKey plaintext now = .ok out)
include hload hs hkeys hsend hbuild

lemma encrypt_built : encrypt host plaintext remote now rng t = (do
    let trusted ← storeCall .trustCheck (host.isTrustedIdentity remote receiverID .sending)
    if trusted = false then .fail .untrustedIdentity
    else do
      let _ ← storeCall .saveIdentity (host.saveIdentity remote receiverID)
      let state ← .lift (s1.setSenderChainKey ck.next)
      .modify (host.touch remote { r with current := some state })
      storeCall .storeSession (host.storeSession remote { r with current := some state })
      return out) (host.touch remote { r with current := some s1 } t1) := by
  rw [encrypt, bind_run_ok (storeCall_ok hload)]
  simp only [hs]
  rw [encryptWith, hkeys, bind_run_ok (lift_run _ _)]
  dsimp only
  rw [hsend, bind_run_ok (lift_run _ _)]
  dsimp only
  rw [bind_run_ok (show modify _ t1 = (.ok (), _) from rfl), hbuild, bind_run_ok (lift_run _ _)]

lemma encrypt_untrusted (htrust : host.isTrustedIdentity remote receiverID .sending
      (host.touch remote { r with current := some s1 } t1) = (.ok false, t2)) :
    encrypt host plaintext remote now rng t = (.error .untrustedIdentity, t2) := by
  rw [encrypt_built hload hs hkeys hsend hbuild, bind_run_ok (storeCall_ok htrust), if_pos rfl]
  rfl

lemma encrypt_eq_ok {t3 t4 : σ} {s2 : SessionState} {change : IdentityChange}
    (htrust : host.isTrustedIdentity remote receiverID .sending
      (host.touch remote { r with current := some s1 } t1) = (.ok true, t2))
    (hsave : host.saveIdentity remote receiverID t2 = (.ok change, t3))
    (hset : s1.setSenderChainKey ck.next = .ok s2)
    (hstore : host.storeSession remote { r with current := some s2 }
      (host.touch remote { r with current := some s2 } t3) = (.ok (), t4)) :
    encrypt host plaintext remote now rng t = (.ok out, t4) := by
  rw [encrypt_built hload hs hkeys hsend hbuild, bind_run_ok (storeCall_ok htrust), if_neg Bool.noConfusion,
    bind_run_ok (storeCall_ok hsave), hset, bind_run_ok (lift_run _ _),
    bind_run_ok (show modify _ t3 = (.ok (), _) from rfl), bind_run_ok (storeCall_ok hstore)]
  rfl

end

lemma encryptWith_error (hc : host.Contract view) {t t' : σ} {r : SessionRecord} {s : SessionState}
    {e : SessionErr} (h : encryptWith host plaintext remote now rng r s t = (.error e, t'))
    (he : e ≠ .store .storeSession) :
    (t' = t ∧ ∀ keys out s1, sendingKeys s = .ok keys → s.pqRatchetSend rng ≠ .ok (out, s1)) ∨
    ∃ keys out s1, sendingKeys s = .ok keys ∧ s.pqRatchetSend rng = .ok (out, s1) ∧
      view t' = view (host.touch remote { r with current := some s1 } t) := by
  rw [encryptWith] at h
  cases hkeys : sendingKeys s with
  | error e' =>
    rw [hkeys] at h
    cases h
    exact .inl ⟨rfl, fun _ _ _ hok => nomatch hok⟩
  | ok keys =>
    obtain ⟨senderID, receiverID, ck⟩ := keys
    rw [hkeys, bind_run_ok (lift_run _ _)] at h
    dsimp only at h
    cases hsend : s.pqRatchetSend rng with
    | error e' =>
      rw [hsend] at h
      cases h
      exact .inl ⟨rfl, fun _ _ _ _ hok => nomatch hok⟩
    | ok res =>
      obtain ⟨⟨pqrMsg, pqrKey⟩, s1⟩ := res
      rw [hsend, bind_run_ok (lift_run _ _)] at h
      dsimp only at h
      rw [bind_run_ok (show modify _ t = (.ok (), _) from rfl)] at h
      refine .inr ⟨_, _, s1, rfl, rfl, ?_⟩
      rcases bind_error h with h | ⟨out, t2, hbuild, h⟩
      · rw [(Prod.mk.inj h).2]
      rw [← (Prod.mk.inj hbuild).2] at h
      rcases bind_error h with h | ⟨trusted, t3, htrust, h⟩
      · obtain ⟨_, h⟩ := storeCall_error h
        exact quiet_run (hc.isTrustedIdentity _ _ _) h
      have hview : view t3 = view (host.touch remote { r with current := some s1 } t) :=
        quiet_run (hc.isTrustedIdentity _ _ _) (mapErr_ok htrust)
      split at h
      · cases h
        exact hview
      rcases bind_error h with h | ⟨change, t4, hsave, h⟩
      · obtain ⟨_, h⟩ := storeCall_error h
        exact (quiet_run (hc.saveIdentity _ _) h).trans hview
      rcases bind_error h with h | ⟨s2, t5, hset, h⟩
      · -- a state with a sender chain key has a sender chain to set
        obtain ⟨sc, hsc⟩ := senderChain_of_key (sendingKeys_inv hkeys).2.2
        obtain ⟨_, _, _, hs1⟩ := SessionState.pqRatchetSend_inv hsend
        have hchain : s1.senderChain = some sc := by
          rw [hs1]
          exact hsc
        rw [setSenderChainKey_of_chain hchain] at h
        cases h
      · rcases bind_error h with h | ⟨_, t6, _, h⟩
        · cases h
        rcases bind_error h with h | ⟨_, t7, _, h⟩
        · exact absurd (storeCall_error h).1 he
        · cases h

end

section
variable [Hash] [StateCodec] {rng : Reader}

def pqrParams (dir : Spqr.Direction) (authKey : Bytes) (pk pk' : PublicKey) : Spqr.Params :=
  ⟨dir, Spqr.v1, Spqr.v1, authKey,
    some ⟨if pk.equal pk' then 0xFFFFFFFF else maxForwardJumps, maxMessageKeys.toUInt32⟩⟩

/-- A ratchet state that goes on sending for as long as the random source does. -/
def CanSend (b : Bytes) : Prop :=
  ∃ (p : Spqr.Params) (fs : List Spqr.EpochSecret) (st : Spqr.PqRatchetState), p.minVersion = Spqr.v1 ∧
    Spqr.decodeState b = .ok st ∧ Spqr.Running p fs st

lemma canSend_initial (dir : Spqr.Direction) (authKey : Bytes) (pk pk' : PublicKey) :
    CanSend (pqrInitialState dir authKey pk pk') :=
  ⟨pqrParams dir authKey pk pk', [], _, rfl, Spqr.Running.initial rfl rfl⟩

variable [IncrementalKem]

lemma CanSend.send {b : Bytes} (h : CanSend b) (rng : Reader) (hrng : ∀ n, (rng.read n).isSome) :
    ∃ res, Spqr.send b rng = .ok res ∧ CanSend res.state := by
  obtain ⟨p, fs, st, hmin, hst, hrun⟩ := h
  obtain ⟨res, hsend⟩ := hrun.send_ok hmin hst hrng
  obtain ⟨st', hst', hrun'⟩ := hrun.send hmin hst hsend
  exact ⟨res, hsend, p, _, st', hmin, hst', hrun'⟩

lemma initial_send_ne {dir : Spqr.Direction} {authKey : Bytes} {pk pk' : PublicKey} {res : Spqr.SendResult}
    (h : Spqr.send (pqrInitialState dir authKey pk pk') rng = .ok res) :
    res.state ≠ pqrInitialState dir authKey pk pk' := by
  intro heq
  have hdecode : Spqr.decodeState (pqrInitialState dir authKey pk pk') =
      .ok (Spqr.initialPq (pqrParams dir authKey pk pk')) := (Spqr.Running.initial rfl rfl).1
  obtain ⟨st, hst, hcase⟩ := Spqr.send_inv h
  cases hst.symm.trans hdecode
  rcases hcase with ⟨hnone, _⟩ | ⟨pb, st', msg, key, _, hstep, rfl⟩
  · cases hnone
  · obtain ⟨_, s', _, es, ch, idx, mk, chainPB, _, _, hch, hkey, rfl, _⟩ := Spqr.sendV1_inv hstep
    cases hch
    obtain ⟨c1, _, hdraw⟩ := bind_eq_ok hkey
    obtain ⟨_, _, hr⟩ := bind_eq_ok hdraw
    cases hr
    have hsame := congrArg Spqr.decodeState heq
    rw [Spqr.decodeState_encodeState, hdecode] at hsame
    cases hsame

end

section
attribute [local instance] zeroHash oneX25519 zeroKem Spqr.unaryCodec plainAes Kem.zeroKyber freePoints zeroXEdDSA
attribute [local instance] unaryWire

noncomputable def sampleSession (index : UInt32) (b : Bytes) : SessionState :=
  match bundleSession zeroReader [] 0 Stores.sampleBundle Stores.sampleKeys Stores.sampleKeys 7 with
  | .error _ => .empty
  | .ok s => { s with
      pqRatchetState := b
      senderChain := s.senderChain.map fun c =>
        { c with chainKey := c.chainKey.map fun ck => { ck with index := index } } }

lemma sampleSession_begun : ∃ (s : SessionState) (authKey : Bytes) (pk pk' : PublicKey),
    bundleSession zeroReader [] 0 Stores.sampleBundle Stores.sampleKeys Stores.sampleKeys 7 = .ok s ∧
      s.pqRatchetState = pqrInitialState .a2b authKey pk pk' ∧ sampleSession 0 s.pqRatchetState = s := by
  obtain ⟨s, _, hs, _⟩ := Stores.sample_processed
  obtain ⟨s0, _, hinit, _, hs0⟩ := bundleSession_inv hs
  obtain ⟨_, _, _, _, _, _, initial, _, _, chain, _, _, _, _, hchain, rfl⟩ := initializeAliceSession_inv hinit
  refine ⟨s, _, _, _, hs, congrArg SessionState.pqRatchetState hs0, ?_⟩
  obtain ⟨_, _, _, rfl⟩ := RootKey.createChain_inv hchain
  rw [sampleSession, hs, hs0]
  rfl

def sampleChainKey (index : UInt32) : ChainKey := ⟨zeros 32, index, length_zeros_32⟩

lemma sampleSession_keys (index : UInt32) (b : Bytes) : sendingKeys (sampleSession index b) =
    .ok (Stores.sampleKeys.publicKey, Stores.sampleKeys.publicKey, sampleChainKey index) := rfl

lemma sampleSession_send (index : UInt32) {b : Bytes} {res : Spqr.SendResult}
    (h : Spqr.send b zeroReader = .ok res) : (sampleSession index b).pqRatchetSend zeroReader =
      .ok ((res.msg, res.key.getD []), sampleSession index res.state) := by
  rw [SessionState.pqRatchetSend]
  change ((Spqr.send b zeroReader).mapError _ >>= _) = _
  rw [h]
  rfl

lemma sampleSession_set (index : UInt32) (b : Bytes) :
    (sampleSession index b).setSenderChainKey (sampleChainKey index).next =
      .ok (sampleSession (index + 1) b) := rfl

lemma sampleSession_build (index : UInt32) (b pqrMsg pqrKey plaintext : Bytes) :
    ∃ out, buildMessage (sampleSession index b) Stores.sampleKeys.publicKey Stores.sampleKeys.publicKey
      (sampleChainKey index) pqrMsg pqrKey plaintext 0 = .ok out := ⟨_, rfl⟩

noncomputable def sampleStores (t : Stores.InMem) (index : UInt32) (b : Bytes) : Stores.InMem :=
  (Stores.InMem.storeSession Stores.samplePeer ⟨some (sampleSession index b), []⟩ t).2

lemma sampleStores_load (t : Stores.InMem) (index : UInt32) (b : Bytes) :
    Stores.InMem.loadSession Stores.samplePeer (sampleStores t index b) =
      (.ok (some ⟨some (sampleSession index b), []⟩), sampleStores t index b) := by
  have hsessions : (sampleStores t index b).sessions = Function.update t.sessions Stores.samplePeer
      (some (SessionRecord.serialize ⟨some (sampleSession index b), []⟩)) := rfl
  rw [Stores.InMem.loadSession, hsessions, Function.update_self]
  simp only [SessionRecord.deserialize_serialize]

lemma sampleStores_current (t : Stores.InMem) (index : UInt32) (b : Bytes) :
    CurrentAt Stores.samplePeer (sampleSession index b) (sampleStores t index b).records := by
  refine ⟨⟨some (sampleSession index b), []⟩, ?_, rfl⟩
  rw [sampleStores, Stores.InMem.records_store, Function.update_self]

end

/-! ## Failed calls -/

section
variable [Hash] [Aes] [Wire SignalMessagePB] [Wire PreKeySignalMessagePB] [IncrementalKem] [StateCodec]
  {plaintext : Bytes} {now : Int} {rng : Reader}

lemma encrypt_error_iff (hc : host.Contract view) {t t' : σ} {e : SessionErr}
    (h : encrypt host plaintext remote now rng t = (.error e, t')) (he : e ≠ .store .storeSession) :
    view t' = view t ↔ Unexposed host view remote rng t := by
  rw [encrypt] at h
  rcases bind_error h with h | ⟨rec, t1, hload, h⟩
  · obtain ⟨_, h⟩ := storeCall_error h
    refine iff_of_true (hc.loadSession _ _ _ _ h).1 fun r t1 s keys out s1 hload => ?_
    rw [h] at hload
    cases hload
  · have hload := mapErr_ok hload
    have hview := (hc.loadSession _ _ _ _ hload).1
    have hquiet : (∀ r s, rec = some r → r.current = some s → ∀ keys out s1, sendingKeys s = .ok keys →
        s.pqRatchetSend rng ≠ .ok (out, s1)) → Unexposed host view remote rng t := by
      intro hno r t2 s keys out s1 hload' hs hkeys hsend
      cases hload.symm.trans hload'
      exact absurd hsend (hno r s rfl hs keys out s1 hkeys)
    cases rec with
    | none =>
      cases h
      exact iff_of_true hview (hquiet fun _ _ hr => nomatch hr)
    | some r =>
      cases hs : r.current with
      | none =>
        simp only [hs] at h
        cases h
        refine iff_of_true hview (hquiet fun r' s hr hs' => ?_)
        cases hr
        rw [hs] at hs'
        cases hs'
      | some s =>
        simp only [hs] at h
        rcases encryptWith_error hc h he with ⟨rfl, hno⟩ | ⟨keys, out, s1, hkeys, hsend, htouched⟩
        · refine iff_of_true hview (hquiet fun r' s' hr hs' => ?_)
          cases hr
          cases hs.symm.trans hs'
          exact hno
        · constructor
          · intro hsame r' t2 s' keys' out' s1' hload' hs' hkeys' hsend'
            cases hload.symm.trans hload'
            cases hs.symm.trans hs'
            cases hsend.symm.trans hsend'
            exact htouched.symm.trans hsame
          · intro hun
            exact htouched.trans (hun r t1 s keys out s1 hload hs hkeys hsend)

/-- When `Encrypt` fails other than by the write of the session: a store that works by value holds the sessions
it held, and one that hands out its own records does exactly if the call failed before the ratchet moved. -/
theorem encrypt_failure (hc : host.Contract view) {t t' : σ} {e : SessionErr}
    (h : encrypt host plaintext remote now rng t = (.error e, t')) (he : e ≠ .store .storeSession) :
    (view t' = view t ↔ Unexposed host view remote rng t) ∧ (host.ByValue view → view t' = view t) ∧
    ((∀ a rec t, view (host.touch a rec t) = Function.update (view t) a (some rec)) →
      (view t' = view t ↔ ∀ r t1 s keys out s1, host.loadSession remote t = (.ok (some r), t1) →
        r.current = some s → sendingKeys s = .ok keys → s.pqRatchetSend rng = .ok (out, s1) → s1 = s)) := by
  have hiff := encrypt_error_iff hc h he
  refine ⟨hiff, fun hv => hiff.mpr (hv.unexposed rng t), fun halias => ?_⟩
  exact hiff.trans (unexposed_alias_iff hc halias t)

end

section
attribute [local instance] zeroHash oneX25519 zeroKem Spqr.unaryCodec plainAes Kem.zeroKyber freePoints zeroXEdDSA
attribute [local instance] unaryWire

noncomputable def distrustingStores (b : Bytes) : Stores.InMem :=
  sampleStores { Stores.InMem.new Stores.sampleKeys 7 with
    knownKeys := fun _ => some ⟨.djb, 2 :: zeros 31, rfl⟩ } 0 b

/-- With the in-memory stores, which work by value, the refused call leaves the sessions as they were. -/
theorem encrypt_failure_by_value : ∃ (b : Bytes) (t' : Stores.InMem),
    encrypt Stores.InMem.host [1] Stores.samplePeer 0 zeroReader (distrustingStores b) =
      (.error .untrustedIdentity, t') ∧ t'.records = (distrustingStores b).records := by
  obtain ⟨s, authKey, pk, pk', _, hratchet, _⟩ := sampleSession_begun
  obtain ⟨res, hsend, _⟩ := (canSend_initial .a2b authKey pk pk').send zeroReader fun _ => rfl
  rw [← hratchet] at hsend
  obtain ⟨out, hbuild⟩ := sampleSession_build 0 res.state res.msg (res.key.getD []) [1]
  have hload : Stores.InMem.host.loadSession Stores.samplePeer (distrustingStores s.pqRatchetState) = _ :=
    sampleStores_load _ 0 s.pqRatchetState
  have hrun := encrypt_untrusted hload rfl (sampleSession_keys 0 _) (sampleSession_send 0 hsend) hbuild rfl
  exact ⟨s.pqRatchetState, _, hrun,
    (encrypt_failure Stores.InMem.contract hrun (fun h => nomatch h)).2.1 Stores.InMem.byValue⟩

/-- With aliased records, a call that is refused for an untrusted identity has advanced the stored session. -/
theorem encrypt_failure_exposed : ∃ (s : SessionState) (t t' : Stores.InMem),
    bundleSession zeroReader [] 0 Stores.sampleBundle Stores.sampleKeys Stores.sampleKeys 7 = .ok s ∧
    CurrentAt Stores.samplePeer s t.records ∧
    encrypt Stores.InMem.aliasHost [1] Stores.samplePeer 0 zeroReader t = (.error .untrustedIdentity, t') ∧
    t'.records ≠ t.records := by
  obtain ⟨s, authKey, pk, pk', hs, hratchet, hsample⟩ := sampleSession_begun
  obtain ⟨res, hsend, _⟩ := (canSend_initial .a2b authKey pk pk').send zeroReader fun _ => rfl
  rw [← hratchet] at hsend
  obtain ⟨out, hbuild⟩ := sampleSession_build 0 res.state res.msg (res.key.getD []) [1]
  have hcurrent : CurrentAt Stores.samplePeer (sampleSession 0 s.pqRatchetState)
      (distrustingStores s.pqRatchetState).records := sampleStores_current _ 0 s.pqRatchetState
  have hcurrent' := sampleStores_current (distrustingStores s.pqRatchetState) 0 res.state
  have hload : Stores.InMem.aliasHost.loadSession Stores.samplePeer (distrustingStores s.pqRatchetState) = _ :=
    sampleStores_load _ 0 s.pqRatchetState
  refine ⟨s, _, _, hs, hsample ▸ hcurrent, encrypt_untrusted hload rfl (sampleSession_keys 0 _)
    (sampleSession_send 0 hsend) hbuild rfl, fun heq => ?_⟩
  have hrecords : (sampleStores (distrustingStores s.pqRatchetState) 0 res.state).records =
      (distrustingStores s.pqRatchetState).records := heq
  rw [hrecords] at hcurrent'
  have hsame := hcurrent'.bind_current.symm.trans hcurrent.bind_current
  rw [hratchet] at hsend hsame
  exact initial_send_ne hsend (congrArg SessionState.pqRatchetState (Option.some.inj hsame))

end

end LibSignal.Session
