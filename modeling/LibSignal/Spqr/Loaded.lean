import LibSignal.Spqr.Ratchet
import LibSignal.Spqr.V1Moves

/-!
# Stored states and their content

`Loaded P vn st` is the shape of every invariant of a stored ratchet state: the state holds a readable,
well-formed v1 machine `s`, its negotiation block is the initial one or gone, and the chain it stores, or
would build from the block, satisfies `P s`.
-/

namespace LibSignal.Spqr
open Chunked Crypto Lib

section
variable [Hash] [IncrementalKem]

structure Loaded (P : V1State → Chain → Prop) (vn : VersionNegotiation) (st : PqRatchetState) :
    Prop where
  negotiation : st.versionNegotiation = none ∨ st.versionNegotiation = some vn
  pending : st.chain = none → st.versionNegotiation = some vn
  machine : ∃ pb s, st.inner = some pb ∧ v1StateFromProto pb = .ok s ∧ s.Wf ∧
    ∀ c, chainFrom st.chain st.versionNegotiation = .ok c → P s c

namespace Loaded
variable {P : V1State → Chain → Prop} {vn : VersionNegotiation} {st st' : PqRatchetState}

omit [IncrementalKem] in
lemma inner_isSome (h : Loaded P vn st) : st.inner.isSome := by
  obtain ⟨pb, _, hpb, _⟩ := h.machine
  rw [hpb]
  rfl

omit [IncrementalKem] in
lemma minVersion (h : Loaded P vn st) {n : VersionNegotiation}
    (hn : st.versionNegotiation = some n) : n = vn := by
  rcases h.negotiation with hnone | hsome
  · rw [hnone] at hn; cases hn
  · rw [hsome] at hn; cases hn; rfl

variable {c : Chain} {key : Option Bytes} {msg : SerializedMessage} {pb : V1StatePB} {s : V1State}

omit [IncrementalKem] in
lemma store {neg : Option VersionNegotiation} (hwf : s.Wf) (hlike : ∀ s', V1State.Like s s' → P s' c)
    (hsto : c.Storable) (hneg : neg = none ∨ neg = some vn) :
    Loaded P vn ⟨neg, some c.toProto, some (v1StateToProto s)⟩ := by
  obtain ⟨s', hs', hl⟩ := V1State.reload hwf
  refine ⟨hneg, fun h => (by cases h), _, s', rfl, hs', hl.wf hwf, ?_⟩
  intro c' hc'
  rw [chainFrom, chainFromProto_toProto hsto] at hc'
  cases hc'
  exact hlike s' hl

omit [IncrementalKem] in
lemma storePending (hwf : s.Wf)
    (hlike : ∀ s' c, V1State.Like s s' → chainFromVersionNegotiation vn = .ok c → P s' c) :
    Loaded P vn ⟨some vn, none, some (v1StateToProto s)⟩ := by
  obtain ⟨s', hs', hl⟩ := V1State.reload hwf
  exact ⟨.inr rfl, fun _ => rfl, _, s', rfl, hs', hl.wf hwf, fun c hc => hlike s' c hl hc⟩

omit [IncrementalKem] in
lemma storeChain {P' : V1State → Chain → Prop} (h : Loaded P' vn st) (hpb : st.inner = some pb)
    (hs : v1StateFromProto pb = .ok s) (hwf : s.Wf) (hP : P s c) (hsto : c.Storable) :
    Loaded P vn { st with chain := some c.toProto } := by
  refine ⟨h.negotiation, fun h => (by cases h), pb, s, hpb, hs, hwf, ?_⟩
  intro c' hc'
  rw [chainFrom, chainFromProto_toProto hsto] at hc'
  cases hc'
  exact hP

omit [IncrementalKem] in
lemma resolveSendChain (h : Loaded P vn st) (hmin : vn.minVersion > v0) {ch : Option Chain}
    (hch : Spqr.resolveSendChain st = .ok ch) :
    ∃ c, ch = some c ∧ chainFrom st.chain st.versionNegotiation = .ok c := by
  cases hc : st.chain with
  | some pb =>
    rw [Spqr.resolveSendChain, hc] at hch
    obtain ⟨c, hpb, rfl⟩ := map_eq_ok hch
    exact ⟨c, rfl, hpb⟩
  | none =>
    have hvn := h.pending hc
    rw [Spqr.resolveSendChain, hc] at hch
    simp only [hvn] at hch
    rw [if_pos hmin] at hch
    obtain ⟨c, hpb, rfl⟩ := map_eq_ok hch
    exact ⟨c, rfl, by rw [hvn]; exact hpb⟩

omit [IncrementalKem] in
lemma resolveSendChain_ok (h : Loaded P vn st) (hmin : vn.minVersion > v0)
    (hc : chainFrom st.chain st.versionNegotiation = .ok c) : Spqr.resolveSendChain st = .ok (some c) := by
  cases hpb : st.chain with
  | some pb =>
    rw [hpb] at hc
    rw [Spqr.resolveSendChain, hpb]
    change (chainFromProto pb).map some = _
    rw [show chainFromProto pb = .ok c from hc]
    rfl
  | none =>
    have hvn := h.pending hpb
    rw [hpb, hvn] at hc
    rw [Spqr.resolveSendChain, hpb, hvn]
    change (if vn.minVersion > v0 then _ else _) = _
    rw [if_pos hmin, show chainFromVersionNegotiation vn = .ok c from hc]
    rfl

lemma send (h : Loaded P vn st) (hmin : vn.minVersion > v0) {rng : Reader} (hpb : st.inner = some pb)
    (hsend : sendV1 st pb rng = .ok (st', msg, key)) :
    ∃ s s' p es c c1 idx mk c2, v1StateFromProto pb = .ok s ∧ P s c ∧ s.Wf ∧ s'.Wf ∧
      s.sendStep rng = .ok (s', p, es) ∧
      addSecret c es = .ok c1 ∧ c1.sendKey (s.epoch - 1) = .ok ((idx, mk), c2) ∧
      msg = serializeMessage ⟨s.epoch, p⟩ idx ∧ key = nonEmptyKey mk ∧
      st' = ⟨st.versionNegotiation, some c2.toProto, some (v1StateToProto s')⟩ := by
  obtain ⟨s, s', m, es, ch, idx, mk, chainPB, hs, hstep, hch, hkey, rfl, rfl, rfl⟩ := sendV1_inv hsend
  obtain ⟨pb', s0, hpb', hs0, hwf, hP⟩ := h.machine
  rw [hpb] at hpb'
  cases hpb'
  rw [hs] at hs0
  cases hs0
  obtain ⟨hstep, hm⟩ := V1State.send_inv hstep
  obtain ⟨c, rfl, hc⟩ := h.resolveSendChain hmin hch
  obtain ⟨c1, hadd, hstore⟩ := bind_eq_ok hkey
  obtain ⟨⟨⟨i, k⟩, c2⟩, hget, hr⟩ := bind_eq_ok hstore
  cases hr
  obtain ⟨me, mp⟩ := m
  obtain rfl : me = s.epoch := hm
  exact ⟨s, s', mp, es, c, c1, _, _, c2, hs, hP c hc, hwf, V1State.sendStep_wf hwf hstep, hstep, hadd, hget,
    rfl, rfl, rfl⟩

lemma negotiated (h : Loaded P vn st) (hmin : vn.minVersion = v1) {pre : MessagePreamble}
    {o : Option PqRatchetState} (hrecv : recvPq st pre msg = .ok (o, key)) :
    pre.version ≠ 0 ∧ (st.versionNegotiation = none → pre.version = 1) ∧
      negotiateRecv st pre.version = .ok st := by
  have hneg := negotiateRecv_min_one h.inner_isSome
    (fun n hn => by rw [h.minVersion hn, hmin]; rfl) pre.version
  obtain ⟨st1, hst1, _⟩ := bind_eq_ok hrecv
  have hver : pre.version ≠ 0 := by
    intro h0
    rw [hneg, if_pos h0] at hst1
    cases hst1
  rw [if_neg hver] at hneg
  have hopen : st.versionNegotiation = none → pre.version = 1 := by
    intro hnone
    by_contra hne
    rw [hneg, if_pos ⟨hne, hnone⟩] at hst1
    cases hst1
  rw [if_neg (fun hbad => hbad.1 (hopen hbad.2))] at hneg
  exact ⟨hver, hopen, hneg⟩

lemma recv (h : Loaded P vn st) {pre : MessagePreamble} {o : Option PqRatchetState} (hpb : st.inner = some pb)
    (hneg : negotiateRecv st pre.version = .ok st) (hver : pre.version ≠ 0)
    (hrecv : recvPq st pre msg = .ok (o, key)) :
    (pre.version ≠ 1 ∧ ∃ s c mk c2, P s c ∧ s.Wf ∧ v1StateFromProto pb = .ok s ∧
        c.recvKey 0 pre.index = .ok (mk, c2) ∧ key = some mk ∧ o = some { st with chain := some c2.toProto }) ∨
    (pre.version = 1 ∧ ∃ s s' m idx n es c c1 mk c2, v1StateFromProto pb = .ok s ∧ P s c ∧ s.Wf ∧
        s'.Wf ∧
        deserializeMessage msg = some (m, idx, n) ∧ s.recv m = .ok (s', es) ∧
        addSecret c es = .ok c1 ∧ c1.recvKey (m.epoch - 1) idx = .ok (mk, c2) ∧
        key = nonEmptyKey mk ∧
        o = some ⟨none, some c2.toProto, some (v1StateToProto s')⟩) := by
  obtain ⟨pb', s0, hpb', hs0, hwf, hP⟩ := h.machine
  rw [hpb] at hpb'
  cases hpb'
  have hour : stateVersion st = 1 := by rw [stateVersion, hpb]; rfl
  obtain ⟨st1, hst1, hrecv⟩ := bind_eq_ok hrecv
  rw [hneg] at hst1
  cases hst1
  rw [hpb] at hrecv
  obtain ⟨⟨st2, key'⟩, hstep, hr⟩ := bind_eq_ok hrecv
  cases hr
  rw [recvStep, hour] at hstep
  by_cases hone : pre.version = 1
  · have hnot := mt (one_lt_version pre.version).mp (fun h => h.2 hone)
    rw [if_neg hnot] at hstep
    obtain ⟨m, idx, n, s, s', es, c, c1, mk, c2, hmsg, hs, hstep, hc, hadd, hkey, rfl, rfl⟩ :=
      recvV1_inv hstep
    rw [hs] at hs0
    cases hs0
    exact .inr ⟨hone, s0, s', m, idx, n, es, c, c1, mk, c2, hs, hP c hc, hwf, V1State.recv_wf hwf hstep, hmsg,
      hstep, hadd, hkey, rfl, rfl⟩
  · rw [if_pos ((one_lt_version pre.version).mpr ⟨hver, hone⟩)] at hstep
    obtain ⟨c, mk, c2, hc, hkey, rfl, rfl⟩ := recvHigher_inv hstep
    exact .inl ⟨hone, s0, c, mk, c2, hP c hc, hwf, hs0, hkey, rfl, rfl⟩

end Loaded

def Params.negotiation (p : Params) : VersionNegotiation :=
  ⟨p.authKey, p.direction, p.minVersion, p.chainParams⟩

def Params.start (p : Params) : V1State :=
  match p.direction with
  | .a2b => newSendEkState p.authKey
  | .b2a => newSendCtState p.authKey

omit [IncrementalKem] in
lemma Params.start_wf (p : Params) : p.start.Wf := by
  rw [Params.start]
  cases p.direction with
  | a2b => trivial
  | b2a => exact V1State.expecting_empty _

omit [IncrementalKem] in
@[simp] lemma Params.start_epoch (p : Params) : p.start.epoch = 1 := by
  rw [Params.start]
  cases p.direction <;> rfl

omit [IncrementalKem] in
lemma Params.start_tag (p : Params) : p.start.tag = .keysUnsampled ∨ p.start.tag = .noHeaderReceived := by
  rw [Params.start]
  cases p.direction with
  | a2b => exact .inl rfl
  | b2a => exact .inr rfl

omit [IncrementalKem] in
lemma Loaded.initial {P : V1State → Chain → Prop} {p : Params} (hv : p.version = v1)
    (hP : ∀ s params, V1State.Like p.start s → p.chainParams = some params →
      P s (.new p.authKey p.direction params)) : Loaded P p.negotiation (initialPq p) := by
  have hinner : initialPq p = ⟨some p.negotiation, none, some (v1StateToProto p.start)⟩ := by
    rw [initialPq, hv]
    rfl
  rw [hinner]
  refine Loaded.storePending p.start_wf (fun s c hs hc => ?_)
  rw [chainFromVersionNegotiation] at hc
  cases hpar : p.chainParams with
  | none =>
    rw [Params.negotiation, hpar] at hc
    cases hc
  | some params =>
    rw [Params.negotiation, hpar] at hc
    cases hc
    exact hP s params hs hpar

section
variable [StateCodec]

omit [IncrementalKem]

def machineOf (b : SerializedState) : Except Err V1State := do
  let st ← decodeState b
  match st.inner with
  | none => .error (.v1StateDecode none)
  | some pb => v1StateFromProto pb

def chainOf (b : SerializedState) : Except Err Chain := do
  let st ← decodeState b
  chainFrom st.chain st.versionNegotiation

end

/-- One successful call of the ratchet, with any randomness and any inbound bytes. A failed call leaves
the state as it was. -/
inductive RatchetStep [StateCodec] : SerializedState → SerializedState → Prop
  | send {b : SerializedState} {rng : Reader} {res : SendResult} (h : send b rng = .ok res) :
      RatchetStep b res.state
  | recv {b : SerializedState} {msg : SerializedMessage} {res : RecvResult}
      (h : recv b msg = .ok res) : RatchetStep b res.state

end

end LibSignal.Spqr
