import LibSignal.Spqr.Downgrade
import LibSignal.Spqr.EpochOrder
import LibSignal.Spqr.Twin

/-!
# The ratchet without its stored form

`LiveState` carries the v1 machine with its encoders and decoders, and the chain, as values from one call to
the next, where the code of `Ratchet` stores them and reads them back around every call.
-/

namespace LibSignal.Spqr
open Chunked Crypto Lib
open Relation (ReflTransGen)

structure LiveState where
  versionNegotiation : Option VersionNegotiation
  chain : Option Chain
  inner : Option V1State

structure LiveSend where
  state : LiveState
  msg : SerializedMessage
  key : Option Bytes
  secret : Option EpochSecret

structure LiveRecv where
  state : LiveState
  key : Option Bytes
  secret : Option EpochSecret

def liveOf [StateCodec] (b : SerializedState) : Except Err LiveState := do
  let st ← decodeState b
  let chain ← st.chain.mapM chainFromProto
  let inner ← st.inner.mapM v1StateFromProto
  return ⟨st.versionNegotiation, chain, inner⟩

namespace LiveState
variable [Hash]

def empty : LiveState := ⟨none, none, none⟩

def initMachine (v : Version) (d : Direction) (authKey : Bytes) : Option V1State :=
  if v = v0 then none
  else some
    (match d with
    | .a2b => newSendEkState authKey
    | .b2a => newSendCtState authKey)

def version (l : LiveState) : Version :=
  match l.inner with
  | some _ => v1
  | none => v0

def chainFrom (l : LiveState) : Except Err Chain :=
  match l.chain with
  | some c => .ok c
  | none =>
    match l.versionNegotiation with
    | none => .error .chainNotAvailable
    | some vn => chainFromVersionNegotiation vn

def resolveSendChain (l : LiveState) : Except Err (Option Chain) :=
  match l.chain with
  | some c => .ok (some c)
  | none =>
    match l.versionNegotiation with
    | none => .error .chainNotAvailable
    | some vn =>
      if vn.minVersion > v0 then (chainFromVersionNegotiation vn).map some else .ok none

def sendChainStep (ch : Option Chain) (key : Option EpochSecret) (epoch : UInt64) :
    Except Err (UInt32 × Bytes × Option Chain) :=
  match ch with
  | none => if key.isSome then .error .chainNotAvailable else .ok (0, [], none)
  | some c => do
    let c ← addSecret c key
    let ((idx, msgKey), c) ← c.sendKey (epoch - 1)
    return (idx, msgKey, some c)

def negotiateRecv (l : LiveState) (mv : UInt8) : Except Err LiveState :=
  let version : Version := Int32.ofNat mv.toNat
  let vn := l.versionNegotiation
  let minimum := match vn with
    | some vn => vn.minVersion &&& 0xff
    | none => l.version
  let negotiating := vn.isSome || l.version = v0
  if version < minimum then .error .minimumVersion
  else if version ≠ l.version ∧ ¬ negotiating then .error .versionMismatch
  else if l.version = v0 ∨ version ≥ l.version then .ok l
  else do
    let ch ← l.chainFrom
    let direction := match vn with
      | some vn => vn.direction
      | none => .a2b
    let authKey := match vn with
      | some vn => vn.authKey
      | none => []
    return ⟨none, some ch, initMachine version direction authKey⟩

def recvHigher (l : LiveState) (index : UInt32) : Except Err LiveRecv := do
  let ch ← l.chainFrom
  let (key, ch) ← ch.recvKey 0 index
  return ⟨{ l with chain := some ch }, some key, none⟩

variable [IncrementalKem]

def sendV1 (l : LiveState) (s : V1State) (rng : Reader) : Except Err LiveSend := do
  let (s', msg, key) ← s.send rng
  let ch ← l.resolveSendChain
  let (index, msgKey, ch) ← sendChainStep ch key msg.epoch
  return ⟨⟨l.versionNegotiation, ch, some s'⟩, serializeMessage msg index, nonEmptyKey msgKey, key⟩

def send (l : LiveState) (rng : Reader) : Except Err LiveSend :=
  match l.inner with
  | none => .ok ⟨empty, [], none, none⟩
  | some s => l.sendV1 s rng

def recvV1 (l : LiveState) (s : V1State) (msg : SerializedMessage) : Except Err LiveRecv := do
  let (sckaMsg, index, _) ← decoded (deserializeMessage msg)
  let (s', key) ← s.recv sckaMsg
  let ch ← l.chainFrom
  let ch ← addSecret ch key
  let (msgKey, ch) ← ch.recvKey (sckaMsg.epoch - 1) index
  return ⟨⟨none, some ch, some s'⟩, nonEmptyKey msgKey, key⟩

def recvStep (l : LiveState) (s : V1State) (preamble : MessagePreamble) (msg : SerializedMessage) :
    Except Err LiveRecv :=
  if (Int32.ofNat preamble.version.toNat : Version) > l.version then l.recvHigher preamble.index
  else l.recvV1 s msg

def recv (l : LiveState) (msg : SerializedMessage) : Except Err LiveRecv := do
  let preamble ← decoded (deserializePreamble msg)
  let l ← l.negotiateRecv preamble.version
  match l.inner with
  | none => return ⟨empty, none, none⟩
  | some s => l.recvStep s preamble msg

end LiveState

/-! ## Live and stored states in step -/

/-- The stored machine reads back as a twin of the live one. -/
def Holds (s : V1State) (pb : V1StatePB) : Prop :=
  s.Wf ∧ ∃ t, v1StateFromProto pb = .ok t ∧ s.Twin t

structure Mirrors (l : LiveState) (st : PqRatchetState) : Prop where
  negotiation : st.versionNegotiation = l.versionNegotiation
  chain : st.chain = l.chain.map Chain.toProto
  sized : ∀ c, l.chain = some c → c.KeysSized
  inner : Option.Rel Holds l.inner st.inner

lemma holds_toProto {s t : V1State} (hwf : s.Wf) (h : s.Twin t) : Holds s (v1StateToProto t) :=
  ⟨hwf, h.reload hwf⟩

lemma holds_init [Hash] (v : Version) (d : Direction) (authKey : Bytes) :
    Option.Rel Holds (LiveState.initMachine v d authKey) (initInner v d authKey) := by
  cases d with
  | a2b =>
    rw [LiveState.initMachine, initInner]
    split
    · exact .none
    · exact .some (holds_toProto trivial .keysUnsampled)
  | b2a =>
    rw [LiveState.initMachine, initInner]
    split
    · exact .none
    · exact .some (holds_toProto (V1State.expecting_empty _) .noHeaderReceived)

namespace Mirrors
variable [Hash] {l : LiveState} {st : PqRatchetState}

omit [Hash] in
lemma inner_cases (h : Mirrors l st) : (l.inner = none ∧ st.inner = none) ∨
      ∃ s pb, l.inner = some s ∧ st.inner = some pb ∧ Holds s pb := by
  have hin := h.inner
  generalize l.inner = x at hin
  generalize st.inner = y at hin
  cases hin with
  | none => exact .inl ⟨rfl, rfl⟩
  | some hs => exact .inr ⟨_, _, rfl, rfl, hs⟩

omit [Hash] in
lemma version (h : Mirrors l st) : stateVersion st = l.version := by
  rw [stateVersion, LiveState.version]
  obtain ⟨hl, hst⟩ | ⟨s, pb, hl, hst, _⟩ := h.inner_cases
  · rw [hl, hst]
  · rw [hl, hst]

lemma chainFrom (h : Mirrors l st) : Spqr.chainFrom st.chain st.versionNegotiation = l.chainFrom := by
  rw [h.chain, h.negotiation, LiveState.chainFrom]
  cases hc : l.chain with
  | none => rfl
  | some c => exact chainFromProto_toProto (h.sized c hc).storable

variable {c : Chain}

lemma sized_fresh {vn : VersionNegotiation} (h : chainFromVersionNegotiation vn = .ok c) : c.KeysSized := by
  rw [chainFromVersionNegotiation] at h
  split at h
  · cases h
  · cases h
    exact Chain.new_keysSized _ _ _

lemma sized_chainFrom (h : Mirrors l st) (hc : l.chainFrom = .ok c) : c.KeysSized := by
  rw [LiveState.chainFrom] at hc
  split at hc
  · cases hc
    exact h.sized _ ‹_›
  · split at hc
    · cases hc
    · exact sized_fresh hc

lemma resolveSendChain (h : Mirrors l st) : Spqr.resolveSendChain st = l.resolveSendChain := by
  rw [Spqr.resolveSendChain, LiveState.resolveSendChain, h.chain, h.negotiation]
  cases hc : l.chain with
  | none => rfl
  | some c =>
    change (chainFromProto c.toProto).map some = _
    rw [chainFromProto_toProto (h.sized c hc).storable]
    rfl

lemma sized_resolveSendChain (h : Mirrors l st) (hc : l.resolveSendChain = .ok (some c)) : c.KeysSized := by
  rw [LiveState.resolveSendChain] at hc
  split at hc
  · cases hc
    exact h.sized _ ‹_›
  · split at hc
    · cases hc
    · split at hc
      · obtain ⟨c', hc', heq⟩ := map_eq_ok hc
        cases heq
        exact sized_fresh hc'
      · cases hc

lemma sendChainStep {ch : Option Chain} (hch : ∀ c, ch = some c → c.KeysSized)
    (key : Option EpochSecret) (epoch : UInt64) :
    Agree (fun r r' => r'.1 = r.1 ∧ r'.2.1 = r.2.1 ∧ r'.2.2 = r.2.2.map Chain.toProto ∧
        ∀ c, r.2.2 = some c → c.KeysSized)
      (LiveState.sendChainStep ch key epoch) (Spqr.sendChainStep ch key epoch) := by
  cases ch with
  | none =>
    exact .ite (.error _) (.ok ⟨rfl, rfl, rfl, nofun⟩)
  | some c =>
    refine .sameBind fun c1 hadd => .sameBind fun r hkey => .ok ⟨rfl, rfl, rfl, ?_⟩
    rintro c2 hc2
    cases hc2
    exact (((hch c rfl).addSecret hadd).sendKey hkey).1

lemma negotiateRecv (h : Mirrors l st) (mv : UInt8) :
    Agree Mirrors (l.negotiateRecv mv) (Spqr.negotiateRecv st mv) := by
  have hchain := h.chainFrom
  rw [h.negotiation] at hchain
  simp only [LiveState.negotiateRecv, Spqr.negotiateRecv, h.version, h.negotiation, hchain]
  refine .ite (.error _) (.ite (.error _) (.ite (.ok h) ?_))
  refine .sameBind fun c hc => .ok ⟨rfl, rfl, ?_, holds_init _ _ _⟩
  rintro c' hc'
  cases hc'
  exact h.sized_chainFrom hc

variable [IncrementalKem]

lemma sendV1 (h : Mirrors l st) {s : V1State} {pb : V1StatePB} (hs : Holds s pb) (rng : Reader) :
    Agree (fun r r' => Mirrors r.state r'.1 ∧ r'.2.1 = r.msg ∧ r'.2.2 = r.key ∧
        ∀ t, v1StateFromProto pb = .ok t → ∃ t' m, t.send rng = .ok (t', m, r.secret))
      (l.sendV1 s rng) (Spqr.sendV1 st pb rng) := by
  obtain ⟨hwf, t, ht, htw⟩ := hs
  rw [Spqr.sendV1, ht, ok_bind, h.resolveSendChain]
  refine (htw.send hwf rng).bind ?_
  rintro ⟨s', m, es⟩ ⟨t', m', es'⟩ _ ht' ⟨htw', hwf', heq⟩
  cases heq
  refine .sameBind fun ch hch => ?_
  have hsized : ∀ c, ch = some c → c.KeysSized := by
    rintro c rfl
    exact h.sized_resolveSendChain hch
  refine (sendChainStep hsized es m.epoch).bind ?_
  rintro ⟨idx, k, ch1⟩ ⟨idx', k', pb1⟩ _ _ ⟨hidx, hk, hpb1, hsized1⟩
  cases hidx
  cases hk
  cases hpb1
  refine .ok ⟨⟨h.negotiation, rfl, hsized1, .some (holds_toProto hwf' htw')⟩, rfl, rfl, ?_⟩
  intro t0 ht0
  cases ht0
  exact ⟨t', m, ht'⟩

omit [IncrementalKem] in
lemma recvHigher (h : Mirrors l st) (idx : UInt32) :
    Agree (fun r r' => Mirrors r.state r'.1 ∧ r'.2 = r.key ∧ r.secret = none)
      (l.recvHigher idx) (Spqr.recvHigher st idx) := by
  rw [Spqr.recvHigher, h.chainFrom]
  refine .sameBind fun c hc => .sameBind fun r hkey => .ok ⟨⟨h.negotiation, rfl, ?_, h.inner⟩, rfl, rfl⟩
  rintro c' hc'
  cases hc'
  exact ((h.sized_chainFrom hc).recvKey hkey).1

lemma recvV1 (h : Mirrors l st) {s : V1State} {pb : V1StatePB} (hs : Holds s pb) (msg : SerializedMessage) :
    Agree (fun r r' => Mirrors r.state r'.1 ∧ r'.2 = r.key ∧ ∀ t, v1StateFromProto pb = .ok t →
          ∃ t' m i n, deserializeMessage msg = some (m, i, n) ∧ t.recv m = .ok (t', r.secret))
      (l.recvV1 s msg) (Spqr.recvV1 st pb msg) := by
  obtain ⟨hwf, t, ht, htw⟩ := hs
  rw [Spqr.recvV1, ht, h.chainFrom]
  refine .sameBind ?_
  rintro ⟨m, idx, n⟩ hmsg
  change Agree _ (s.recv m >>= _) (t.recv m >>= _)
  refine (htw.recv hwf m).bind ?_
  rintro ⟨s', es⟩ ⟨t', es'⟩ _ ht' ⟨htw', hwf', heq⟩
  cases heq
  refine .sameBind fun c hc => .sameBind fun c1 hadd => .sameBind fun r hkey => ?_
  refine .ok ⟨⟨rfl, rfl, ?_, .some (holds_toProto hwf' htw')⟩, rfl, ?_⟩
  · rintro c' hc'
    cases hc'
    exact (((h.sized_chainFrom hc).addSecret hadd).recvKey hkey).1
  · intro t0 ht0
    cases ht0
    exact ⟨t', m, idx, n, decoded_eq_ok hmsg, ht'⟩

end Mirrors

section
variable [Hash] [IncrementalKem] [StateCodec] {l : LiveState} {b : SerializedState}

/-- The bytes store what the live state carries. -/
def Stored (l : LiveState) (b : SerializedState) : Prop :=
  ∃ st, decodeState b = .ok st ∧ Mirrors l st

omit [Hash] [IncrementalKem] in
lemma stored_empty : Stored .empty [] :=
  ⟨.zero, by rw [decodeState, StateCodec.unmarshal_nil], rfl, rfl, nofun, .none⟩

omit [Hash] [IncrementalKem] in
lemma Mirrors.stored {st : PqRatchetState} (h : Mirrors l st) : Stored l (encodeState st) :=
  ⟨st, decodeState_encodeState st, h⟩

omit [IncrementalKem] in
lemma stored_initial (p : Params) : ∃ l, Stored l (initialState p) := by
  rw [initialState]
  split
  · exact ⟨.empty, stored_empty⟩
  · refine ⟨⟨some ⟨p.authKey, p.direction, p.minVersion, p.chainParams⟩, none,
      LiveState.initMachine p.version p.direction p.authKey⟩, Mirrors.stored ?_⟩
    exact ⟨rfl, rfl, by rintro _ ⟨⟩, holds_init _ _ _⟩

omit [Hash] [IncrementalKem] in
lemma Stored.live (h : Stored l b) : ∃ l', liveOf b = .ok l' ∧ Stored l' b := by
  obtain ⟨st, hst, h⟩ := h
  have hchain : st.chain.mapM chainFromProto = .ok l.chain := by
    rw [h.chain]
    cases hc : l.chain with
    | none => rfl
    | some c =>
      change (some <$> chainFromProto c.toProto) = _
      rw [chainFromProto_toProto (h.sized c hc).storable]
      rfl
  have hinner : ∃ x, st.inner.mapM v1StateFromProto = .ok x ∧ Option.Rel Holds x st.inner := by
    obtain ⟨_, hpb⟩ | ⟨s, pb, _, hpb, hwf, t, ht, htw⟩ := h.inner_cases
    · rw [hpb]
      exact ⟨none, rfl, .none⟩
    · rw [hpb]
      refine ⟨some t, ?_, .some ⟨htw.wf hwf, t, ht, .refl (htw.wf hwf)⟩⟩
      change (some <$> v1StateFromProto pb) = _
      rw [ht]
      rfl
  obtain ⟨x, hx, hrel⟩ := hinner
  refine ⟨⟨st.versionNegotiation, l.chain, x⟩, ?_, st, hst, ⟨rfl, h.chain, h.sized, hrel⟩⟩
  rw [liveOf, hst, ok_bind, hchain, ok_bind, hx]
  rfl

lemma Stored.send (h : Stored l b) (rng : Reader) :
    Agree (fun r res => Stored r.state res.state ∧ res.msg = r.msg ∧ res.key = r.key ∧
        sendSecret b rng = r.secret) (l.send rng) (Spqr.send b rng) := by
  obtain ⟨st, hst, h⟩ := h
  rw [Spqr.send, hst, ok_bind, LiveState.send, sendSecret, machineOf, hst, ok_bind]
  obtain ⟨hl, hpb⟩ | ⟨s, pb, hl, hpb, hs⟩ := h.inner_cases
  · rw [hl, hpb]
    exact .ok ⟨stored_empty, rfl, rfl, rfl⟩
  · rw [hl, hpb]
    refine (h.sendV1 hs rng).bindRight ?_
    rintro r ⟨st', msg, key⟩ ⟨hm, hmsg, hkey, hsecret⟩
    refine .ok ⟨hm.stored, hmsg, hkey, ?_⟩
    obtain ⟨_, t, ht, _⟩ := hs
    obtain ⟨t', m, ht'⟩ := hsecret t ht
    simp only [ht, ht']

omit [IncrementalKem] [StateCodec] in
lemma negotiateRecv_version_one {st st' : PqRatchetState} (h : negotiateRecv st 1 = .ok st') : st' = st := by
  have hge : (Int32.ofNat (1 : UInt8).toNat : Version) ≥ stateVersion st := by
    rw [stateVersion]
    split
    · decide
    · decide
  simp only [negotiateRecv, hge, or_true, if_true] at h
  split_ifs at h
  exact (Except.ok.inj h).symm

lemma recvSecret_of_version {msg : SerializedMessage} {pre : MessagePreamble}
    (hpre : deserializePreamble msg = some pre) (hv : pre.version ≠ 1) : recvSecret b msg = none := by
  have hmsg : deserializeMessage msg = none := by
    cases hm : deserializeMessage msg with
    | none => rfl
    | some x =>
      obtain ⟨m, idx, n⟩ := x
      obtain ⟨pre', hpre', hv', _⟩ := deserializeMessage_preamble hm
      rw [hpre] at hpre'
      cases hpre'
      exact absurd hv' hv
  rw [recvSecret, hmsg]
  cases machineOf b <;> rfl

lemma Stored.recv (h : Stored l b) (msg : SerializedMessage) :
    Agree (fun r res => Stored r.state res.state ∧ res.key = r.key ∧ recvSecret b msg = r.secret)
      (l.recv msg) (Spqr.recv b msg) := by
  obtain ⟨st, hst, h⟩ := h
  rw [LiveState.recv, Spqr.recv]
  refine .sameBind fun pre hdec => ?_
  have hpre := decoded_eq_ok hdec
  rw [hst, ok_bind, recvPq, bind_assoc]
  refine (h.negotiateRecv pre.version).bind ?_
  intro l1 st1 _ hst1 h1
  have hone : pre.version = 1 → st1 = st := by
    intro hv
    rw [hv] at hst1
    exact negotiateRecv_version_one hst1
  obtain hl | ⟨s, pb, hl, hpb, hs⟩ := h1.inner_cases
  · rw [hl.1, hl.2]
    refine .ok ⟨stored_empty, rfl, ?_⟩
    by_cases hv : pre.version = 1
    · -- the state was left as it is, so there is no machine
      have hno : st.inner = none := by rw [← hone hv]; exact hl.2
      rw [recvSecret, machineOf, hst, ok_bind, hno]
    · exact recvSecret_of_version hpre hv
  · rw [hl, hpb]
    dsimp only
    rw [bind_assoc, LiveState.recvStep, Spqr.recvStep, h1.version]
    split
    · rename_i hhigher
      rw [LiveState.version, hl] at hhigher
      refine (h1.recvHigher pre.index).bindRight ?_
      rintro r ⟨st', key⟩ ⟨hm, hkey, hsecret⟩
      refine .ok ⟨hm.stored, hkey, ?_⟩
      rw [hsecret]
      exact recvSecret_of_version hpre ((one_lt_version _).mp hhigher).2
    · refine (h1.recvV1 hs msg).bindRight ?_
      rintro r ⟨st', key⟩ ⟨hm, hkey, hsecret⟩
      refine .ok ⟨hm.stored, hkey, ?_⟩
      obtain ⟨_, t, ht, _⟩ := hs
      obtain ⟨t', m, i, n, hmsg, ht'⟩ := hsecret t ht
      obtain ⟨pre', hpre', hv, _⟩ := deserializeMessage_preamble hmsg
      rw [hpre] at hpre'
      cases hpre'
      rw [hone hv] at hpb
      simp only [recvSecret, machineOf, hst, ok_bind, hpb, ht, hmsg, ht']

/-! ## Sequences of calls -/

inductive Call where
  | send (rng : Reader)
  | recv (msg : SerializedMessage)

/-- What a call shows: its message, the epoch secret its machine emitted and its key, or its error. -/
inductive Output where
  | sent (msg : SerializedMessage) (secret : Option EpochSecret) (key : Option Bytes)
  | received (secret : Option EpochSecret) (key : Option Bytes)
  | failed (err : Err)

def LiveState.call (l : LiveState) : Call → Output × LiveState
  | .send rng =>
    match l.send rng with
    | .ok r => (.sent r.msg r.secret r.key, r.state)
    | .error e => (.failed e, l)
  | .recv msg =>
    match l.recv msg with
    | .ok r => (.received r.secret r.key, r.state)
    | .error e => (.failed e, l)

/-- A call of the code; a failed one keeps the stored state. -/
def storedCall (b : SerializedState) : Call → Output × SerializedState
  | .send rng =>
    match Spqr.send b rng with
    | .ok r => (.sent r.msg (sendSecret b rng) r.key, r.state)
    | .error e => (.failed e, b)
  | .recv msg =>
    match Spqr.recv b msg with
    | .ok r => (.received (recvSecret b msg) r.key, r.state)
    | .error e => (.failed e, b)

def LiveState.calls (l : LiveState) : List Call → List Output
  | [] => []
  | op :: ops => (l.call op).1 :: (l.call op).2.calls ops

/-- What a sequence of calls of the code shows. -/
def storedCalls (b : SerializedState) : List Call → List Output
  | [] => []
  | op :: ops => (storedCall b op).1 :: storedCalls (storedCall b op).2 ops

lemma Stored.call (h : Stored l b) (op : Call) :
    (l.call op).1 = (storedCall b op).1 ∧ Stored (l.call op).2 (storedCall b op).2 := by
  cases op with
  | send rng =>
    have hstep := h.send rng
    rw [LiveState.call, storedCall]
    generalize l.send rng = x at hstep
    generalize Spqr.send b rng = y at hstep
    cases hstep with
    | error e => exact ⟨rfl, h⟩
    | ok hr =>
      obtain ⟨hs, hmsg, hkey, hsecret⟩ := hr
      exact ⟨by simp only [hmsg, hkey, hsecret], hs⟩
  | recv msg =>
    have hstep := h.recv msg
    rw [LiveState.call, storedCall]
    generalize l.recv msg = x at hstep
    generalize Spqr.recv b msg = y at hstep
    cases hstep with
    | error e => exact ⟨rfl, h⟩
    | ok hr =>
      obtain ⟨hs, hkey, hsecret⟩ := hr
      exact ⟨by simp only [hkey, hsecret], hs⟩

lemma Stored.calls (h : Stored l b) (ops : List Call) : l.calls ops = storedCalls b ops := by
  induction ops generalizing l b with
  | nil => rfl
  | cons op ops ih =>
    obtain ⟨hout, hnext⟩ := h.call op
    rw [LiveState.calls, storedCalls, hout, ih hnext]

lemma stored_reachable {p : Params} (hrun : ReflTransGen RatchetStep (initialState p) b) : ∃ l, Stored l b := by
  induction hrun with
  | refl => exact stored_initial p
  | tail _ hstep ih =>
    obtain ⟨l, hl⟩ := ih
    cases hstep with
    | @send rng res h =>
      have hnext := (hl.call (.send rng)).2
      rw [storedCall, h] at hnext
      exact ⟨_, hnext⟩
    | @recv msg res h =>
      have hnext := (hl.call (.recv msg)).2
      rw [storedCall, h] at hnext
      exact ⟨_, hnext⟩

/-- Storing the state around every call cannot be observed: after any reachable state, every sequence of
calls shows the same messages, epoch secrets, keys and errors as the same calls on the values read once
and carried along in memory. -/
theorem serialization_unobservable {p : Params} (hrun : ReflTransGen RatchetStep (initialState p) b) :
    ∃ l, liveOf b = .ok l ∧ ∀ ops, l.calls ops = storedCalls b ops := by
  obtain ⟨l0, h0⟩ := stored_reachable hrun
  obtain ⟨l, hl, h⟩ := h0.live
  exact ⟨l, hl, h.calls⟩

end

/-- A fresh state of version 1 is reachable and can be kept live. -/
theorem serialization_unobservable_fresh :
    ∃ l, @liveOf unaryCodec (@initialState zeroHash unaryCodec ⟨.a2b, v1, v0, [], none⟩) = .ok l ∧
      ∀ ops, @LiveState.calls zeroHash zeroKem l ops = @storedCalls zeroHash zeroKem unaryCodec
          (@initialState zeroHash unaryCodec ⟨.a2b, v1, v0, [], none⟩) ops :=
  @serialization_unobservable zeroHash zeroKem unaryCodec _ _ .refl

end LibSignal.Spqr
