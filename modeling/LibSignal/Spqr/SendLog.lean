import LibSignal.Spqr.Coupling
import LibSignal.Spqr.Downgrade
import LibSignal.Spqr.SendFresh

/-!
# The messages that one ratchet sends

`LoggedSends log b` says that a stored ratchet has sent the messages of a log: the pairs of epoch and index
that they carry are those of the log, each once (`LoggedSends.nodup`).
-/

namespace LibSignal.Spqr
open Chunked Crypto Lib

def carried (msg : SerializedMessage) : Option (UInt64 × UInt64) := do
  let (epoch, at1) ← decodeVarint msg 1
  let (index, _) ← decodeVarint msg at1
  return (epoch, index)

lemma carried_serialize (m : V1Message) (index : UInt32) :
    carried (serializeMessage m index) = some (m.epoch, index.toUInt64) := by
  have hepoch := decodeVarint_append [versionByteV1] m.epoch
    (varintLoop 10 index.toUInt64 ++ ([msgTypeFor m.payload] ++ payloadBytes m.payload))
  have hindex := decodeVarint_append (appendVarint [versionByteV1] m.epoch) index.toUInt64
    ([msgTypeFor m.payload] ++ payloadBytes m.payload)
  have hmsg : serializeMessage m index = appendVarint [versionByteV1] m.epoch ++
      (varintLoop 10 index.toUInt64 ++ ([msgTypeFor m.payload] ++ payloadBytes m.payload)) := by
    rw [serializeMessage_eq, headBytes, appendVarint]
    simp only [List.append_assoc]
  rw [← hmsg] at hepoch
  rw [appendVarint, List.append_assoc, ← hmsg] at hindex
  rw [carried, show (1 : Nat) = [versionByteV1].length from rfl, hepoch]
  simp only [Option.bind_eq_bind, Option.bind_some, hindex]
  rfl

/-! ## Machine and chain -/

structure Level (s : V1State) (c : Chain) : Prop where
  current : c.currentEpoch + 1 = s.epoch + (if s.tag.ahead then 1 else 0)
  send : s.epoch = c.sendEpoch + 1 ∨ s.tag.early = true ∧ s.epoch = c.sendEpoch + 2

namespace Level
variable {s s' : V1State} {c c' : Chain}

lemma of_tag (h : Level s c) (htag : s'.tag = s.tag) (hepoch : s'.epoch = s.epoch) : Level s' c :=
  ⟨by rw [htag, hepoch]; exact h.current, by rw [htag, hepoch]; exact h.send⟩

lemma of_epochs (h : Level s c) (hcur : c'.currentEpoch = c.currentEpoch) (hsend : c'.sendEpoch = c.sendEpoch) :
    Level s c' :=
  ⟨by rw [hcur]; exact h.current, by rw [hsend]; exact h.send⟩

lemma distance (h : Level s c) : (c.currentEpoch - c.sendEpoch).toNat ≤ 1 := by
  have hcur : c.currentEpoch - c.sendEpoch = s.epoch + (if s.tag.ahead then 1 else 0) - 1 - c.sendEpoch := by
    rw [← h.current, add_sub_cancel_right]
  rw [hcur]
  rcases h.send with hsend | ⟨hearly, hsend⟩
  · rw [hsend]
    split
    · have hone : c.sendEpoch + 1 + 1 - 1 - c.sendEpoch = 1 := by grind
      rw [hone]
      exact le_refl 1
    · have hzero : c.sendEpoch + 1 + 0 - 1 - c.sendEpoch = 0 := by grind
      rw [hzero]
      exact Nat.zero_le 1
  · have hahead : s.tag.ahead = false :=
      s.tag.early_or_ahead.resolve_left fun hlate => Bool.noConfusion (hearly.symm.trans hlate)
    have hone : c.sendEpoch + 2 + 0 - 1 - c.sendEpoch = 1 := by grind
    rw [hsend, hahead, if_neg Bool.false_ne_true, hone]
    exact le_refl 1

end Level

section
variable [Hash]

lemma addSecret_inv {c c1 : Chain} {es : Option EpochSecret} (h : addSecret c es = .ok c1) :
    c1.sendEpoch = c.sendEpoch ∧ c1.links.length ≤ c.links.length + 1 ∧
      c1.currentEpoch = (es.map (·.epoch)).getD c.currentEpoch := by
  cases es with
  | none =>
    cases h
    exact ⟨rfl, Nat.le_succ _, rfl⟩
  | some es =>
    change c.addEpoch es = _ at h
    rw [Chain.addEpoch] at h
    split at h
    · cases h
    · cases h
      refine ⟨rfl, ?_, rfl⟩
      dsimp only
      rw [List.length_append, List.length_singleton]

lemma recvKey_epochs {c c' : Chain} {ep : UInt64} {idx : UInt32} {k : Bytes}
    (h : c.recvKey ep idx = .ok (k, c')) : c'.currentEpoch = c.currentEpoch ∧ c'.sendEpoch = c.sendEpoch := by
  rw [Chain.recvKey] at h
  split at h
  · cases h
    exact ⟨rfl, rfl⟩
  · obtain ⟨i, _, h⟩ := bind_eq_ok h
    cases hl : c.links[i]? with
    | none =>
      rw [hl] at h
      cases h
    | some l =>
      rw [hl] at h
      obtain ⟨_, _, h⟩ := bind_eq_ok h
      cases h
      exact ⟨rfl, rfl⟩

namespace Level
variable {s s' : V1State} {c c1 c2 : Chain} {es : Option EpochSecret}

lemma sendMove (h : Level s c) (hepoch : s'.epoch = s.epoch) (hmove : V1State.SendMove s s' es)
    (hadd : addSecret c es = .ok c1) (hcur : c2.currentEpoch = c1.currentEpoch)
    (hsend : c2.sendEpoch = s.epoch - 1) : Level s' c2 := by
  obtain ⟨_, _, hcur1⟩ := addSecret_inv hadd
  have hcurrent := h.current
  refine ⟨?_, .inl (by rw [hsend, hepoch, sub_add_cancel])⟩
  rw [hcur, hcur1, hepoch]
  cases hmove with
  | again htag =>
    rw [htag]
    exact hcurrent
  | sampleKeys htag htag' =>
    rw [htag] at hcurrent
    rw [htag']
    exact hcurrent
  | sampleCt1 htag htag' secret =>
    rw [htag']
    rfl

lemma recvMove (h : Level s c) {e : UInt64} (hmove : V1State.RecvMove s s' e es)
    (hadd : addSecret c es = .ok c1) : Level s' c1 := by
  obtain ⟨hsend1, _, hcur1⟩ := addSecret_inv hadd
  have hcurrent := h.current
  have hsend := h.send
  refine ⟨?_, ?_⟩
  · rw [hcur1]
    cases hmove with
    | inEpoch htag hepoch =>
      rw [htag.ahead, hepoch]
      exact hcurrent
    | nextEpoch htag htag' hmsg _ hepoch =>
      rw [htag] at hcurrent
      rw [htag', hepoch, hmsg]
      exact hcurrent.trans (add_zero _).symm
    | finish htag htag' _ hepoch secret =>
      rw [htag', hepoch]
      exact (add_zero _).symm
  · rw [hsend1]
    cases hmove with
    | inEpoch htag hepoch =>
      rw [htag.early, hepoch]
      exact hsend
    | nextEpoch htag htag' hmsg _ hepoch =>
      -- a message of the next epoch is taken after the first send of this one only
      rw [htag] at hsend
      have hlate : s.epoch = c.sendEpoch + 1 := hsend.resolve_right fun hearly => Bool.noConfusion hearly.1
      exact .inr ⟨by rw [htag']; rfl, by rw [hepoch, hmsg, hlate, add_assoc]; rfl⟩
    | finish htag htag' _ hepoch secret =>
      rw [htag] at hsend
      have hlate : s.epoch = c.sendEpoch + 1 := hsend.resolve_right fun hearly => Bool.noConfusion hearly.1
      exact .inr ⟨by rw [htag']; rfl, by rw [hepoch, hlate, add_assoc]; rfl⟩

end Level

namespace Chain.Sends
variable {log : List SentKey} {c c' : Chain}

omit [Hash] in
lemma length_le (h : c.Sends log) : c.links.length ≤ (c.currentEpoch - c.sendEpoch).toNat + 2 := by
  have hsmall := h.small
  have hcur := c.currentEpoch.toNat_lt
  have hsend := c.sendEpoch.toNat_lt
  rw [UInt64.toNat_sub]
  rcases h.window with hw | hpast
  · have hcount := hw.count
    have hle := hw.send_le
    omega
  · rw [Chain.Past] at hpast
    omega

lemma sendKey_epochs {ep : UInt64} {ik : UInt32 × Bytes} (h : c.Sends log) (hkey : c.sendKey ep = .ok (ik, c')) :
    c'.currentEpoch = c.currentEpoch ∧ c'.sendEpoch = ep := by
  obtain ⟨hnot, i, _, hi, _⟩ := Chain.sendKey_inv hkey
  obtain ⟨hw, hge, hle⟩ := h.send_range hnot hi
  obtain ⟨_, c1, hok, _, _, hsend, hcur, _⟩ := hw.sendKey hge hle h.small
  cases hkey.symm.trans hok
  exact ⟨hcur, hsend⟩

end Chain.Sends

structure Sending (log : List SentKey) (s : V1State) (c : Chain) : Prop where
  sends : c.Sends log
  sized : c.KeysSized
  level : Level s c

namespace Sending
variable {log : List SentKey} {s s' : V1State} {c c1 c2 : Chain} {es : Option EpochSecret} {idx : UInt32}
  {mk : Bytes}

lemma addSecret (h : Sending log s c) (hadd : Spqr.addSecret c es = .ok c1) : c1.Sends log := by
  cases es with
  | none =>
    cases hadd
    exact h.sends
  | some es =>
    refine h.sends.addEpoch hadd ?_
    obtain ⟨_, hlen, _⟩ := addSecret_inv hadd
    have hkept := h.sends.length_le
    have hdistance := h.level.distance
    omega

lemma send (h : Sending log s c) (hepoch : s'.epoch = s.epoch) (hmove : V1State.SendMove s s' es)
    (hadd : Spqr.addSecret c es = .ok c1) (hkey : c1.sendKey (s.epoch - 1) = .ok ((idx, mk), c2))
    (hfew : Chain.sends log (s.epoch - 1) + 1 < 2 ^ 32) : Sending (log ++ [⟨s.epoch - 1, idx, mk⟩]) s' c2 := by
  have hsends := h.addSecret hadd
  obtain ⟨hcur, hsend⟩ := hsends.sendKey_epochs hkey
  exact ⟨(hsends.sendKey hkey).2.2 hfew, ((h.sized.addSecret hadd).sendKey hkey).1,
    h.level.sendMove hepoch hmove hadd hcur hsend⟩

lemma recvKey {ep : UInt64} (h : Sending log s c) (hkey : c.recvKey ep idx = .ok (mk, c2)) : Sending log s c2 := by
  obtain ⟨hcur, hsend⟩ := recvKey_epochs hkey
  exact ⟨h.sends.recvKey hkey, (h.sized.recvKey hkey).1, h.level.of_epochs hcur hsend⟩

lemma recv {e : UInt64} (h : Sending log s c) (hmove : V1State.RecvMove s s' e es)
    (hadd : Spqr.addSecret c es = .ok c1) : Sending log s' c1 :=
  ⟨h.addSecret hadd, h.sized.addSecret hadd, h.level.recvMove hmove hadd⟩

end Sending

variable [IncrementalKem] [StateCodec]

/-- A stored ratchet of minimum version 1 that has sent the keys of a log. -/
def LoggedSends (log : List SentKey) (b : SerializedState) : Prop :=
  ∃ (p : Params) (st : PqRatchetState) (c : Chain), p.minVersion = v1 ∧ decodeState b = .ok st ∧
    Loaded (Sending log) p.negotiation st ∧ chainFrom st.chain st.versionNegotiation = .ok c

namespace LoggedSends
variable {log : List SentKey} {b : SerializedState}

omit [IncrementalKem] in
lemma store {p : Params} {s : V1State} {c : Chain} {neg : Option VersionNegotiation} (hmin : p.minVersion = v1)
    (hwf : s.Wf) (h : Sending log s c) (hneg : neg = none ∨ neg = some p.negotiation) :
    LoggedSends log (encodeState ⟨neg, some c.toProto, some (v1StateToProto s)⟩) :=
  ⟨p, _, c, hmin, decodeState_encodeState _,
    Loaded.store hwf (fun _ hl => ⟨h.sends, h.sized, h.level.of_tag hl.tag hl.epoch⟩) h.sized.storable hneg,
    chainFromProto_toProto h.sized.storable⟩

omit [IncrementalKem] in
lemma initial {p : Params} (hv : p.version = v1) (hmin : p.minVersion = v1) {params : ChainParams}
    (hpar : p.chainParams = some params) : LoggedSends [] (initialState p) := by
  refine ⟨p, initialPq p, .new p.authKey p.direction params, hmin, ?_, Loaded.initial hv ?_, ?_⟩
  · rw [initialState, hv, if_neg (by decide), decodeState_encodeState]
  · intro s params' hl _
    refine ⟨Chain.new_sends _ _ _, Chain.new_keysSized _ _ _, ?_⟩
    have hstart : Level p.start (.new p.authKey p.direction params') := by
      rcases p.start_tag with ht | ht
      · exact ⟨by rw [ht, p.start_epoch]; rfl, .inl (by rw [p.start_epoch]; rfl)⟩
      · exact ⟨by rw [ht, p.start_epoch]; rfl, .inl (by rw [p.start_epoch]; rfl)⟩
    exact hstart.of_tag hl.tag hl.epoch
  · change chainFromVersionNegotiation p.negotiation = _
    rw [chainFromVersionNegotiation, Params.negotiation, hpar]

omit [IncrementalKem] in
lemma nodup (h : LoggedSends log b) : (log.map fun e => (e.epoch, e.index)).Nodup := by
  obtain ⟨p, st, c, _, _, hst, hc⟩ := h
  obtain ⟨_, s, _, _, _, hP⟩ := hst.machine
  exact (hP c hc).sends.logged.nodup

lemma send (h : LoggedSends log b) {rng : Reader} {res : SendResult} (hsend : Spqr.send b rng = .ok res) :
    ∃ e : SentKey, carried res.msg = some (e.epoch + 1, e.index.toUInt64) ∧
      (Chain.sends log e.epoch + 1 < 2 ^ 32 → LoggedSends (log ++ [e]) res.state) := by
  obtain ⟨p, st, _, hmin, hst, hloaded, _⟩ := h
  obtain ⟨st0, hst0, hcase⟩ := send_inv hsend
  cases hst0.symm.trans hst
  rcases hcase with ⟨hnone, _⟩ | ⟨pb, st', msg, key, hpb, hstep, rfl⟩
  · have hsome := hloaded.inner_isSome
    rw [hnone] at hsome
    cases hsome
  · obtain ⟨s, s', pl, es, c, c1, idx, mk, c2, _, hc, _, hwf', hstep', hadd, hkey, rfl, _, rfl⟩ :=
      hloaded.send (by change p.minVersion > v0; rw [hmin]; decide) hpb hstep
    obtain ⟨hepoch, hmove⟩ := V1State.sendStep_move hstep'
    refine ⟨⟨s.epoch - 1, idx, mk⟩, ?_, fun hfew => ?_⟩
    · rw [carried_serialize, sub_add_cancel]
    · exact store hmin hwf' (hc.send hepoch hmove hadd hkey hfew) hloaded.negotiation

lemma recv (h : LoggedSends log b) {msg : SerializedMessage} {res : RecvResult}
    (hrecv : Spqr.recv b msg = .ok res) : LoggedSends log res.state := by
  obtain ⟨p, st, _, hmin, hst, hloaded, _⟩ := h
  obtain ⟨pre, st0, o, key, _, hst0, hstep, rfl⟩ := recv_inv hrecv
  cases hst0.symm.trans hst
  obtain ⟨pb, hpb⟩ := Option.isSome_iff_exists.mp hloaded.inner_isSome
  obtain ⟨hver, _, hneg⟩ := hloaded.negotiated hmin hstep
  rcases hloaded.recv hpb hneg hver hstep with hhigh | hone
  · obtain ⟨_, s, c, mk, c2, hc, hwf, hs, hkey, _, rfl⟩ := hhigh
    have hc2 := hc.recvKey hkey
    exact ⟨p, _, c2, hmin, decodeState_encodeState _,
      hloaded.storeChain hpb hs hwf hc2 hc2.sized.storable, chainFromProto_toProto hc2.sized.storable⟩
  · obtain ⟨_, s, s', m, idx, n, es, c, c1, mk, c2, _, hc, _, hwf', _, hstep', hadd, hkey, _, rfl⟩ := hone
    exact store hmin hwf' ((hc.recv (V1State.recv_move hstep') hadd).recvKey hkey) (.inl rfl)

end LoggedSends

end

end LibSignal.Spqr
