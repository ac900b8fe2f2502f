import LibSignal.Lib.ExceptBind
import LibSignal.Spqr.V1Codec

/-!
# The ratchet

Model of `spqr/state.go` and `spqr/spqr.go`: the stored state with its version negotiation, key chain and v1
machine, and the public operations `initialState`, `send` and `recv` on serialized states.
-/

namespace LibSignal.Spqr
open Chunked Crypto Lib

structure DirectionPB where
  ctr : UInt32
  next : Bytes
  prev : Bytes
deriving DecidableEq, Repr

structure EpochPB where
  send : Option DirectionPB
  recv : Option DirectionPB
deriving DecidableEq, Repr

structure ChainPB where
  direction : Direction
  currentEpoch : UInt64
  links : List EpochPB
  nextRoot : Bytes
  sendEpoch : UInt64
  params : Option ChainParams
deriving DecidableEq, Repr

structure VersionNegotiation where
  authKey : Bytes
  direction : Direction
  minVersion : Version
  chainParams : Option ChainParams
deriving DecidableEq, Repr

structure PqRatchetState where
  versionNegotiation : Option VersionNegotiation
  chain : Option ChainPB
  inner : Option V1StatePB
deriving DecidableEq, Repr

def PqRatchetState.zero : PqRatchetState := ⟨none, none, none⟩

/-- The protobuf runtime on `PqRatchetState`: marshalling is lossless, and the empty string is the
message without fields. -/
class StateCodec where
  marshal : PqRatchetState → Bytes
  unmarshal : Bytes → Option PqRatchetState
  unmarshal_marshal : ∀ st, unmarshal (marshal st) = some st
  unmarshal_nil : unmarshal [] = some .zero

abbrev SerializedState := Bytes

abbrev SerializedMessage := Bytes

def emptyState : SerializedState := []

def decodeState [StateCodec] (b : SerializedState) : Except Err PqRatchetState :=
  match StateCodec.unmarshal b with
  | some st => .ok st
  | none => .error .invalidState

def encodeState [StateCodec] (st : PqRatchetState) : SerializedState := StateCodec.marshal st

@[simp] lemma decodeState_encodeState [StateCodec] (st : PqRatchetState) :
    decodeState (encodeState st) = .ok st := by
  simp [decodeState, encodeState, StateCodec.unmarshal_marshal]

def ChainEpochDirection.toProto (d : ChainEpochDirection) : DirectionPB :=
  ⟨d.ctr, d.next, d.prev.data⟩

def chainEpochDirectionFromProto (pb : Option DirectionPB) : Except Err ChainEpochDirection :=
  match pb with
  | none => .error (.chainDecode none)
  | some pb =>
    if pb.next.length ≠ 0 ∧ pb.next.length ≠ chainKeyLen then .error (.chainDecode none)
    else .ok ⟨pb.ctr, pb.next, ⟨pb.prev⟩⟩

def ChainEpoch.toProto (l : ChainEpoch) : EpochPB := ⟨some l.send.toProto, some l.recv.toProto⟩

def chainEpochFromProto (l : EpochPB) : Except Err ChainEpoch := do
  let send ← chainEpochDirectionFromProto l.send
  let recv ← chainEpochDirectionFromProto l.recv
  return ⟨send, recv⟩

def Chain.toProto (c : Chain) : ChainPB :=
  { direction := c.dir, currentEpoch := c.currentEpoch, sendEpoch := c.sendEpoch,
    links := c.links.map ChainEpoch.toProto, nextRoot := c.nextRoot, params := some c.params }

def chainFromProto (pb : ChainPB) : Except Err Chain :=
  match pb.params with
  | none => .error (.chainDecode none)
  | some params => do
    let links ← pb.links.mapM chainEpochFromProto
    return { dir := pb.direction, currentEpoch := pb.currentEpoch, sendEpoch := pb.sendEpoch,
             links := links, nextRoot := pb.nextRoot, params := params }

/-- A chain whose keys have the length the stored form accepts. -/
def Chain.Storable (c : Chain) : Prop :=
  ∀ l ∈ c.links, (l.send.next = [] ∨ l.send.next.length = chainKeyLen) ∧
    (l.recv.next = [] ∨ l.recv.next.length = chainKeyLen)

/-! ## Orchestration -/

structure Params where
  direction : Direction
  version : Version
  minVersion : Version
  authKey : Bytes
  chainParams : Option ChainParams
deriving DecidableEq, Repr

structure SendResult where
  state : SerializedState
  msg : SerializedMessage
  key : Option Bytes
deriving DecidableEq, Repr

structure RecvResult where
  state : SerializedState
  key : Option Bytes
deriving DecidableEq, Repr

section Orchestration
variable [Hash]

def initInner (v : Version) (d : Direction) (authKey : Bytes) : Option V1StatePB :=
  if v = v0 then none
  else some (v1StateToProto
    (match d with
    | .a2b => newSendEkState authKey
    | .b2a => newSendCtState authKey))

def initialPq (p : Params) : PqRatchetState :=
  { versionNegotiation := some ⟨p.authKey, p.direction, p.minVersion, p.chainParams⟩
    chain := none
    inner := initInner p.version p.direction p.authKey }

def initialState [StateCodec] (p : Params) : SerializedState :=
  if p.version = v0 then emptyState else encodeState (initialPq p)

def stateVersion (st : PqRatchetState) : Version :=
  match st.inner with
  | some _ => v1
  | none => v0

def chainFromVersionNegotiation (vn : VersionNegotiation) : Except Err Chain :=
  match vn.chainParams with
  | none => .error .chainNotAvailable
  | some params => .ok (.new vn.authKey vn.direction params)

def chainFrom (pb : Option ChainPB) (vn : Option VersionNegotiation) : Except Err Chain :=
  match pb with
  | some pb => chainFromProto pb
  | none =>
    match vn with
    | none => .error .chainNotAvailable
    | some vn => chainFromVersionNegotiation vn

def resolveSendChain (st : PqRatchetState) : Except Err (Option Chain) :=
  match st.chain with
  | some pb => (chainFromProto pb).map some
  | none =>
    match st.versionNegotiation with
    | none => .error .chainNotAvailable
    | some vn =>
      if vn.minVersion > v0 then (chainFromVersionNegotiation vn).map some else .ok none

def nonEmptyKey (k : Bytes) : Option Bytes := if k.length = 0 then none else some k

def addSecret (c : Chain) : Option EpochSecret → Except Err Chain
  | none => .ok c
  | some es => c.addEpoch es

def sendChainStep (ch : Option Chain) (key : Option EpochSecret) (epoch : UInt64) :
    Except Err (UInt32 × Bytes × Option ChainPB) :=
  match ch with
  | none => if key.isSome then .error .chainNotAvailable else .ok (0, [], none)
  | some c => do
    let c ← addSecret c key
    let ((idx, mk), c) ← c.sendKey (epoch - 1)
    return (idx, mk, some c.toProto)

variable [IncrementalKem]

def sendV1 (st : PqRatchetState) (v1pb : V1StatePB) (rng : Reader) :
    Except Err (PqRatchetState × SerializedMessage × Option Bytes) := do
  let v1s ← v1StateFromProto v1pb
  let (s', msg, key) ← v1s.send rng
  let ch ← resolveSendChain st
  let (index, msgKey, chainPB) ← sendChainStep ch key msg.epoch
  return ({ versionNegotiation := st.versionNegotiation, chain := chainPB,
            inner := some (v1StateToProto s') }, serializeMessage msg index, nonEmptyKey msgKey)

def send [StateCodec] (state : SerializedState) (rng : Reader) : Except Err SendResult := do
  let st ← decodeState state
  match st.inner with
  | none => return ⟨[], [], none⟩
  | some v1pb => do
    let (st', msg, key) ← sendV1 st v1pb rng
    return ⟨encodeState st', msg, key⟩

def negotiateRecv (prest : PqRatchetState) (mv : UInt8) : Except Err PqRatchetState :=
  let version : Version := Int32.ofNat mv.toNat
  let ourV := stateVersion prest
  let vn := prest.versionNegotiation
  let minimum := match vn with
    | some vn => vn.minVersion &&& 0xff
    | none => ourV
  let negotiating := vn.isSome || ourV = v0
  if version < minimum then .error .minimumVersion
  else if version ≠ ourV ∧ ¬ negotiating then .error .versionMismatch
  else if ourV = v0 ∨ version ≥ ourV then .ok prest
  else do
    let ch ← chainFrom prest.chain vn
    let direction := match vn with
      | some vn => vn.direction
      | none => .a2b
    let authKey := match vn with
      | some vn => vn.authKey
      | none => []
    return { versionNegotiation := none, chain := some ch.toProto,
             inner := initInner version direction authKey }

def recvHigher (st : PqRatchetState) (index : UInt32) :
    Except Err (PqRatchetState × Option Bytes) := do
  let ch ← chainFrom st.chain st.versionNegotiation
  let (key, ch) ← ch.recvKey 0 index
  return ({ st with chain := some ch.toProto }, some key)

/-- The result of a message parser; its only error is `ErrMsgDecode`. -/
def decoded {α : Type} : Option α → Except Err α
  | some a => .ok a
  | none => .error .msgDecode

def recvV1 (st : PqRatchetState) (v1pb : V1StatePB) (msg : SerializedMessage) :
    Except Err (PqRatchetState × Option Bytes) := do
  let (sckaMsg, index, _) ← decoded (deserializeMessage msg)
  let v1s ← v1StateFromProto v1pb
  let (s', key) ← v1s.recv sckaMsg
  let ch ← chainFrom st.chain st.versionNegotiation
  let ch ← addSecret ch key
  let (msgKey, ch) ← ch.recvKey (sckaMsg.epoch - 1) index
  return ({ versionNegotiation := none, chain := some ch.toProto, inner := some (v1StateToProto s') },
    nonEmptyKey msgKey)

def recvStep (st : PqRatchetState) (v1pb : V1StatePB) (preamble : MessagePreamble)
    (msg : SerializedMessage) : Except Err (PqRatchetState × Option Bytes) :=
  if (Int32.ofNat preamble.version.toNat : Version) > stateVersion st then
    recvHigher st preamble.index
  else recvV1 st v1pb msg

def recvPq (prest : PqRatchetState) (preamble : MessagePreamble) (msg : SerializedMessage) :
    Except Err (Option PqRatchetState × Option Bytes) := do
  let st ← negotiateRecv prest preamble.version
  match st.inner with
  | none => return (none, none)
  | some v1pb =>
    let (st', key) ← recvStep st v1pb preamble msg
    return (some st', key)

def recv [StateCodec] (state : SerializedState) (msg : SerializedMessage) :
    Except Err RecvResult := do
  let preamble ← decoded (deserializePreamble msg)
  let prest ← decodeState state
  let (st', key) ← recvPq prest preamble msg
  return ⟨match st' with
    | some st' => encodeState st'
    | none => [], key⟩

/-! ## Taking the operations apart -/

omit [Hash] [IncrementalKem] in
lemma chainEpochDirectionFromProto_toProto {d : ChainEpochDirection}
    (h : d.next = [] ∨ d.next.length = chainKeyLen) :
    chainEpochDirectionFromProto (some d.toProto) = .ok d := by
  have hnot : ¬ (d.next.length ≠ 0 ∧ d.next.length ≠ chainKeyLen) := by
    rcases h with h | h
    · simp [h]
    · simp [h]
  exact if_neg hnot

omit [Hash] [IncrementalKem] in
lemma chainFromProto_toProto {c : Chain} (h : c.Storable) : chainFromProto c.toProto = .ok c := by
  have hlinks : ∀ links : List ChainEpoch, (∀ l ∈ links, l ∈ c.links) →
      (links.map ChainEpoch.toProto).mapM chainEpochFromProto = .ok links := by
    intro links
    induction links with
    | nil => intro _; rfl
    | cons l links ih =>
      intro hmem
      obtain ⟨hs, hr⟩ := h l (hmem l (by simp))
      have hl : chainEpochFromProto l.toProto = .ok l := by
        simp [chainEpochFromProto, ChainEpoch.toProto, chainEpochDirectionFromProto_toProto hs,
          chainEpochDirectionFromProto_toProto hr]
      rw [List.map_cons, List.mapM_cons, hl, ih (fun l' hl' => hmem l' (by simp [hl']))]
      rfl
  simp only [chainFromProto, Chain.toProto, hlinks c.links (fun _ h => h)]
  rfl

variable {key : Option Bytes} {msg : SerializedMessage} {rng : Reader} {st st' : PqRatchetState}

lemma sendV1_inv {pb : V1StatePB} (h : sendV1 st pb rng = .ok (st', msg, key)) :
    ∃ s s' m es ch idx mk chainPB, v1StateFromProto pb = .ok s ∧ s.send rng = .ok (s', m, es) ∧
      resolveSendChain st = .ok ch ∧ sendChainStep ch es m.epoch = .ok (idx, mk, chainPB) ∧
      st' = ⟨st.versionNegotiation, chainPB, some (v1StateToProto s')⟩ ∧
      msg = serializeMessage m idx ∧ key = nonEmptyKey mk := by
  obtain ⟨s, hs, h⟩ := bind_eq_ok h
  obtain ⟨⟨s', m, es⟩, hstep, h⟩ := bind_eq_ok h
  obtain ⟨ch, hch, h⟩ := bind_eq_ok h
  obtain ⟨⟨idx, mk, chainPB⟩, hkey, h⟩ := bind_eq_ok h
  cases h
  exact ⟨s, s', m, es, ch, idx, mk, chainPB, hs, hstep, hch, hkey, rfl, rfl, rfl⟩

omit [Hash] in
lemma V1State.send_inv [Hash] {s s' : V1State} {m : V1Message} {es : Option EpochSecret}
    (h : s.send rng = .ok (s', m, es)) : s.sendStep rng = .ok (s', m.payload, es) ∧ m.epoch = s.epoch := by
  obtain ⟨⟨s1, p, k⟩, hstep, h⟩ := bind_eq_ok h
  cases h
  exact ⟨hstep, rfl⟩

omit [Hash] [IncrementalKem] in
lemma decoded_eq_ok {α : Type} {x : Option α} {a : α} (h : decoded x = .ok a) : x = some a := by
  cases x with
  | none => cases h
  | some b => cases h; rfl

lemma recvV1_inv {pb : V1StatePB} (h : recvV1 st pb msg = .ok (st', key)) :
    ∃ m idx n s s' es c c1 mk c2, deserializeMessage msg = some (m, idx, n) ∧
      v1StateFromProto pb = .ok s ∧ s.recv m = .ok (s', es) ∧
      chainFrom st.chain st.versionNegotiation = .ok c ∧ addSecret c es = .ok c1 ∧
      c1.recvKey (m.epoch - 1) idx = .ok (mk, c2) ∧
      st' = ⟨none, some c2.toProto, some (v1StateToProto s')⟩ ∧ key = nonEmptyKey mk := by
  obtain ⟨⟨m, idx, n⟩, hmsg, h⟩ := bind_eq_ok h
  obtain ⟨s, hs, h⟩ := bind_eq_ok h
  obtain ⟨⟨s', es⟩, hstep, h⟩ := bind_eq_ok h
  obtain ⟨c, hc, h⟩ := bind_eq_ok h
  obtain ⟨c1, hadd, h⟩ := bind_eq_ok h
  obtain ⟨⟨mk, c2⟩, hkey, h⟩ := bind_eq_ok h
  cases h
  exact ⟨m, idx, n, s, s', es, c, c1, mk, c2, decoded_eq_ok hmsg, hs, hstep, hc, hadd, hkey, rfl, rfl⟩

omit [IncrementalKem] in
lemma recvHigher_inv {idx : UInt32} (h : recvHigher st idx = .ok (st', key)) :
    ∃ c mk c2, chainFrom st.chain st.versionNegotiation = .ok c ∧
      c.recvKey 0 idx = .ok (mk, c2) ∧ st' = { st with chain := some c2.toProto } ∧
      key = some mk := by
  obtain ⟨c, hc, h⟩ := bind_eq_ok h
  obtain ⟨⟨mk, c2⟩, hkey, h⟩ := bind_eq_ok h
  cases h
  exact ⟨c, mk, c2, hc, hkey, rfl, rfl⟩

lemma send_inv [StateCodec] {b : SerializedState} {res : SendResult} (h : send b rng = .ok res) :
    ∃ st, decodeState b = .ok st ∧ ((st.inner = none ∧ res = ⟨[], [], none⟩) ∨
        ∃ pb st' msg key, st.inner = some pb ∧ sendV1 st pb rng = .ok (st', msg, key) ∧
          res = ⟨encodeState st', msg, key⟩) := by
  obtain ⟨st, hst, h⟩ := bind_eq_ok h
  refine ⟨st, hst, ?_⟩
  cases hin : st.inner with
  | none =>
    rw [hin] at h
    cases h
    exact .inl ⟨rfl, rfl⟩
  | some pb =>
    rw [hin] at h
    obtain ⟨⟨st', msg, key⟩, hstep, hr⟩ := bind_eq_ok h
    cases hr
    exact .inr ⟨pb, st', msg, key, rfl, hstep, rfl⟩

lemma recv_inv [StateCodec] {b : SerializedState} {res : RecvResult} (h : recv b msg = .ok res) :
    ∃ pre st o key, deserializePreamble msg = some pre ∧ decodeState b = .ok st ∧
      recvPq st pre msg = .ok (o, key) ∧
      res = ⟨match o with
        | some st' => encodeState st'
        | none => [], key⟩ := by
  obtain ⟨pre, hpre, h⟩ := bind_eq_ok h
  obtain ⟨st, hst, h⟩ := bind_eq_ok h
  obtain ⟨⟨o, key⟩, hrecv, hr⟩ := bind_eq_ok h
  cases hr
  exact ⟨pre, st, o, key, decoded_eq_ok hpre, hst, hrecv, rfl⟩

omit [Hash] [IncrementalKem] in
lemma toInt_version (mv : UInt8) : (Int32.ofNat mv.toNat : Version).toInt = mv.toNat := by
  have := mv.toNat_lt
  rw [Int32.toInt_ofNat_of_lt (by omega)]

omit [Hash] [IncrementalKem] in
lemma version_lt_one (mv : UInt8) : (Int32.ofNat mv.toNat : Version) < 1 ↔ mv = 0 := by
  rw [Int32.lt_iff_toInt_lt, toInt_version, ← UInt8.toNat_inj]
  change (mv.toNat : Int) < 1 ↔ mv.toNat = 0
  omega

omit [Hash] [IncrementalKem] in
lemma version_eq_one (mv : UInt8) : (Int32.ofNat mv.toNat : Version) = 1 ↔ mv = 1 := by
  rw [← Int32.toInt_inj, toInt_version, ← UInt8.toNat_inj]
  change (mv.toNat : Int) = 1 ↔ mv.toNat = 1
  omega

omit [Hash] [IncrementalKem] in
lemma one_lt_version (mv : UInt8) : (Int32.ofNat mv.toNat : Version) > 1 ↔ mv ≠ 0 ∧ mv ≠ 1 := by
  rw [gt_iff_lt, Int32.lt_iff_toInt_lt, toInt_version, ne_eq, ne_eq, ← UInt8.toNat_inj, ← UInt8.toNat_inj]
  change (1 : Int) < mv.toNat ↔ ¬ mv.toNat = 0 ∧ ¬ mv.toNat = 1
  omega

omit [IncrementalKem] in
lemma negotiateRecv_one (hinner : st.inner.isSome)
    (hmin : ∀ vn, st.versionNegotiation = some vn → vn.minVersion = 0 ∨ vn.minVersion = 1) :
    negotiateRecv st 1 = .ok st := by
  obtain ⟨pb, hpb⟩ := Option.isSome_iff_exists.mp hinner
  have hour : stateVersion st = 1 := by rw [stateVersion, hpb]; rfl
  have hmask : (1 : Version) &&& 255 ≤ 1 := by decide
  cases hvn : st.versionNegotiation with
  | none => simp [negotiateRecv, hour, hvn, v0]
  | some vn =>
    rcases hmin vn hvn with h | h
    · simp [negotiateRecv, hour, hvn, v0, h]
    · simp [negotiateRecv, hour, hvn, v0, h, hmask]

omit [IncrementalKem] in
lemma negotiateRecv_min_one (hinner : st.inner.isSome)
    (hmin : ∀ vn, st.versionNegotiation = some vn → vn.minVersion = 1) (mv : UInt8) : negotiateRecv st mv =
      if mv = 0 then .error .minimumVersion
      else if mv ≠ 1 ∧ st.versionNegotiation = none then .error .versionMismatch
      else .ok st := by
  obtain ⟨pb, hpb⟩ := Option.isSome_iff_exists.mp hinner
  have hour : stateVersion st = 1 := by rw [stateVersion, hpb]; rfl
  have hmask : (1 : Version) &&& 0xff = 1 := by decide
  by_cases h0 : mv = 0
  · cases hvn : st.versionNegotiation with
    | none => simp [negotiateRecv, hour, hvn, h0]
    | some vn => simp [negotiateRecv, hvn, hmin vn hvn, hmask, h0]
  · have hge := mt (version_lt_one mv).mp h0
    have hge' : (Int32.ofNat mv.toNat : Version) ≥ 1 := Int32.not_lt.mp hge
    cases hvn : st.versionNegotiation with
    | none =>
      by_cases h1 : mv = 1
      · simp [negotiateRecv, hour, hvn, h1, v0]
      · have := mt (version_eq_one mv).mp h1
        simp [negotiateRecv, hour, hvn, hge, h0, h1, this, v0]
    | some vn =>
      simp [negotiateRecv, hour, hvn, hmin vn hvn, hmask, hge, h0, hge', v0]

end Orchestration

end LibSignal.Spqr
