import LibSignal.Spqr.Loaded

/-!
# Opened states

`Opened vn b s c` says that the stored state `b` holds the machine `s` and the chain `c`, the one it stores or
would build from the negotiation block `vn`.
-/

namespace LibSignal.Spqr
open Chunked Crypto Lib

section
variable [Hash] [StateCodec]

/-- The stored state holds the machine and the chain. -/
def Opened (vn : VersionNegotiation) (b : SerializedState) (s : V1State) (c : Chain) : Prop :=
  ∃ st pb, decodeState b = .ok st ∧ st.inner = some pb ∧ v1StateFromProto pb = .ok s ∧
    chainFrom st.chain st.versionNegotiation = .ok c ∧
    (st.versionNegotiation = none ∨ st.versionNegotiation = some vn) ∧
    (st.chain = none → st.versionNegotiation = some vn)

namespace Opened
variable {vn : VersionNegotiation} {b : SerializedState} {s : V1State} {c : Chain}

lemma store {s' : V1State} (neg : Option VersionNegotiation) (hneg : neg = none ∨ neg = some vn)
    (hwf : s'.Wf) (hsto : c.Storable) : ∃ s'', V1State.Like s' s'' ∧
      Opened vn (encodeState ⟨neg, some c.toProto, some (v1StateToProto s')⟩) s'' c := by
  obtain ⟨s'', hs'', hl⟩ := V1State.reload hwf
  exact ⟨s'', hl, _, _, decodeState_encodeState _, rfl, hs'', chainFromProto_toProto hsto, hneg,
    fun h => by cases h⟩

lemma initial {p : Params} (hv : p.version = v1) {params : ChainParams} (hpar : p.chainParams = some params) :
    ∃ s, V1State.Like p.start s ∧
      Opened p.negotiation (initialState p) s (.new p.authKey p.direction params) := by
  obtain ⟨s, hs, hl⟩ := V1State.reload p.start_wf
  refine ⟨s, hl, initialPq p, v1StateToProto p.start, ?_, ?_, hs, ?_, .inr rfl, fun _ => rfl⟩
  · rw [initialState, hv, if_neg (by decide), decodeState_encodeState]
  · rw [initialPq, hv]
    rfl
  · change chainFromVersionNegotiation p.negotiation = _
    rw [chainFromVersionNegotiation, Params.negotiation, hpar]

lemma machineOf_eq (h : Opened vn b s c) : machineOf b = .ok s := by
  obtain ⟨st, pb, hst, hpb, hs, _⟩ := h
  rw [machineOf, hst, ok_bind, hpb]
  exact hs

variable [IncrementalKem]

lemma send (h : Opened vn b s c) {rng : Reader} {res : SendResult} (hsend : Spqr.send b rng = .ok res) :
    ∃ s' p es, s.sendStep rng = .ok (s', p, es) ∧
      ((es = none ∧ chainFromVersionNegotiation vn = .ok c ∧ vn.minVersion ≤ v0 ∧
          res.msg = serializeMessage ⟨s.epoch, p⟩ 0 ∧ res.key = none ∧
          (s'.Wf → ∃ s'', V1State.Like s' s'' ∧ Opened vn res.state s'' c)) ∨
        ∃ c1 idx mk c2, addSecret c es = .ok c1 ∧ c1.sendKey (s.epoch - 1) = .ok ((idx, mk), c2) ∧
          res.msg = serializeMessage ⟨s.epoch, p⟩ idx ∧ res.key = nonEmptyKey mk ∧
          (s'.Wf → c2.Storable → ∃ s'', V1State.Like s' s'' ∧ Opened vn res.state s'' c2)) := by
  obtain ⟨st, pb, hst, hpb, hs, hc, hneg, hpend⟩ := h
  obtain ⟨st0, hst0, hcase⟩ := send_inv hsend
  rw [hst] at hst0
  cases hst0
  rcases hcase with ⟨hnone, _⟩ | ⟨pb', st', msg, key, hpb', hstep, rfl⟩
  · rw [hpb] at hnone
    cases hnone
  rw [hpb] at hpb'
  cases hpb'
  obtain ⟨s0, s', m, es, ch, idx, mk, chainPB, hs0, hsend', hch, hkey, rfl, rfl, rfl⟩ := sendV1_inv hstep
  rw [hs] at hs0
  cases hs0
  obtain ⟨hsend', hm⟩ := V1State.send_inv hsend'
  obtain ⟨me, mp⟩ := m
  obtain rfl : me = s.epoch := hm
  refine ⟨s', mp, es, hsend', ?_⟩
  -- the chain of the send is the opened one, or absent during negotiation
  have hres : ch = some c ∨ (ch = none ∧ st.chain = none ∧ vn.minVersion ≤ v0) := by
    rw [resolveSendChain] at hch
    cases hpc : st.chain with
    | some cpb =>
      rw [hpc] at hch hc
      obtain ⟨c', hc', rfl⟩ := map_eq_ok hch
      rw [show chainFromProto cpb = .ok c from hc] at hc'
      cases hc'
      exact .inl rfl
    | none =>
      have hvn := hpend hpc
      rw [hpc, hvn] at hch hc
      simp only at hch
      split at hch
      · obtain ⟨c', hc', rfl⟩ := map_eq_ok hch
        rw [show chainFromVersionNegotiation vn = .ok c from hc] at hc'
        cases hc'
        exact .inl rfl
      · rename_i hmin
        cases hch
        exact .inr ⟨rfl, rfl, Int32.not_lt.mp hmin⟩
  rcases hres with rfl | ⟨rfl, hnone, hmin⟩
  · right
    obtain ⟨c1, hadd, hdraw⟩ := bind_eq_ok hkey
    obtain ⟨⟨⟨i, k⟩, c2⟩, hget, hr⟩ := bind_eq_ok hdraw
    cases hr
    exact ⟨c1, idx, mk, c2, hadd, hget, rfl, rfl, fun hwf hsto => store _ hneg hwf hsto⟩
  · left
    rw [sendChainStep] at hkey
    have hvn := hpend hnone
    rw [hnone, hvn] at hc
    cases es with
    | some x => cases hkey
    | none =>
      cases hkey
      refine ⟨rfl, hc, hmin, rfl, rfl, fun hwf => ?_⟩
      obtain ⟨s'', hs'', hl⟩ := V1State.reload hwf
      exact ⟨s'', hl, _, _, decodeState_encodeState _, rfl, hs'', by rw [hvn]; exact hc, hneg,
        fun _ => hvn⟩

lemma send_ok (h : Opened vn b s c) (hmin : vn.minVersion > v0) {rng : Reader} {s' : V1State}
    {p : Payload} {es : Option EpochSecret} (hstep : s.sendStep rng = .ok (s', p, es)) {c1 c2 : Chain}
    {idx : UInt32} {mk : Bytes} (hadd : addSecret c es = .ok c1)
    (hkey : c1.sendKey (s.epoch - 1) = .ok ((idx, mk), c2)) : ∃ res, Spqr.send b rng = .ok res := by
  obtain ⟨st, pb, hst, hpb, hs, hc, _, hpend⟩ := h
  have hch : resolveSendChain st = .ok (some c) := by
    rw [resolveSendChain]
    cases hpc : st.chain with
    | some cpb =>
      rw [hpc] at hc
      simp only [show chainFromProto cpb = .ok c from hc]
      rfl
    | none =>
      have hvn := hpend hpc
      rw [hpc, hvn] at hc
      simp only [hvn, if_pos hmin, show chainFromVersionNegotiation vn = .ok c from hc]
      rfl
  rw [Spqr.send, hst, ok_bind, hpb]
  simp only [sendV1, hs, V1State.send, hstep, ok_bind, hch, sendChainStep, hadd, pure_eq_ok]
  rw [hkey]
  exact ⟨_, rfl⟩

lemma recv_eq (h : Opened vn b s c) (hmin : vn.minVersion = v0 ∨ vn.minVersion = v1) {m : V1Message}
    {idx : UInt32} (he : m.epoch ≠ 0) (hack : m.payload ≠ .ct1Ack false) :
    Spqr.recv b (serializeMessage m idx) = (do
      let r ← s.recv m
      let c1 ← addSecret c r.2
      let k ← c1.recvKey (m.epoch - 1) idx
      return ⟨encodeState ⟨none, some k.2.toProto, some (v1StateToProto r.1)⟩, nonEmptyKey k.1⟩) := by
  obtain ⟨st, pb, hst, hpb, hs, hc, hneg, _⟩ := h
  obtain ⟨n, hpre⟩ := deserializePreamble_serialize he idx
  have hmsg := deserializeMessage_serialize he hack idx []
  rw [List.append_nil] at hmsg
  have hone : negotiateRecv st versionByteV1 = .ok st := by
    refine negotiateRecv_one (by rw [hpb]; rfl) fun n hn => ?_
    rcases hneg with hnone | hsome
    · rw [hnone] at hn
      cases hn
    · rw [hsome] at hn
      cases hn
      exact hmin
  have hver : ¬ (Int32.ofNat versionByteV1.toNat : Version) > stateVersion st := by
    rw [stateVersion, hpb]
    change ¬ (Int32.ofNat versionByteV1.toNat : Version) > v1
    decide
  rw [Spqr.recv, hpre]
  simp only [decoded, ok_bind, hst, recvPq, hone, hpb, recvStep, if_neg hver, recvV1, hmsg, hs, hc]
  cases s.recv m with
  | error e => rfl
  | ok r =>
    simp only [ok_bind]
    cases addSecret c r.2 with
    | error e => rfl
    | ok c1 =>
      simp only [ok_bind]
      cases c1.recvKey (m.epoch - 1) idx with
      | error e => rfl
      | ok k => rfl

end Opened

end

end LibSignal.Spqr
