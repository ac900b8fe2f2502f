import LibSignal.Lib.Avoids
import LibSignal.Spqr.SendFresh
import LibSignal.Spqr.UnaryCodec
import LibSignal.Spqr.V1Moves

/-!
# Slices that can be out of range

`send` and `recv` are modelled with total list operations. The `…_panic_iff` lemmas say for the chain and for
the v1 machine when a check fails.
-/

namespace LibSignal.Spqr
open Chunked Crypto Lib

def sliceChecked (b : Bytes) (i j : Nat) : Except Err Bytes :=
  if i ≤ j ∧ j ≤ b.length then .ok (slice b i j) else .error .indexPanic

/-! ## Skipped keys -/

namespace KeyHistory

def removeChecked (h : KeyHistory) (i : Nat) : Except Err KeyHistory :=
  if h.data.length < keyHistoryEntry then .error .indexPanic else .ok (h.remove i)

def gcLoopChecked (horizonBE : Bytes) : Nat → KeyHistory → Nat → Except Err KeyHistory
  | 0, h, _ => .ok h
  | fuel + 1, h, i =>
    if i < h.data.length then do
      let idx ← sliceChecked h.data i (i + 4)
      if idx < horizonBE then do
        let h' ← h.removeChecked i
        gcLoopChecked horizonBE fuel h' i
      else gcLoopChecked horizonBE fuel h (i + keyHistoryEntry)
    else .ok h

def gcChecked (h : KeyHistory) (currentKey maxOOO : UInt32) : Except Err KeyHistory :=
  if h.data.length < trimSize maxOOO * keyHistoryEntry then .ok h
  else if currentKey < maxOOO then .ok h
  else gcLoopChecked (be32 (currentKey - maxOOO)) h.data.length h 0

def getLoopChecked (wantBE : Bytes) (h : KeyHistory) :
    Nat → Nat → Except Err (Option (Bytes × KeyHistory))
  | 0, _ => .ok none
  | fuel + 1, i =>
    if i < h.data.length then do
      let idx ← sliceChecked h.data i (i + 4)
      if idx = wantBE then do
        let out ← sliceChecked h.data (i + 4) (i + keyHistoryEntry)
        let h' ← h.removeChecked i
        return some (out, h')
      else getLoopChecked wantBE h fuel (i + keyHistoryEntry)
    else .ok none

def getChecked (h : KeyHistory) (idx currentCtr maxOOO : UInt32) : Except Err (Bytes × KeyHistory) :=
  if idx + maxOOO < currentCtr then .error (.keyTrimmed idx)
  else do
    match ← getLoopChecked (be32 idx) h h.data.length 0 with
    | some r => .ok r
    | none => .error (.keyAlreadyRequested idx)

/-- The history is a whole number of records. -/
def Whole (h : KeyHistory) : Prop := h.data.length % keyHistoryEntry = 0

lemma length_remove (h : KeyHistory) (i : Nat) :
    (h.remove i).data.length = h.data.length - keyHistoryEntry := by
  simp only [remove]
  split
  · simp only [List.length_take, List.length_append, List.length_drop]
    omega
  · simp

lemma gcLoopChecked_guards (horizonBE : Bytes) (fuel : Nat) (h : KeyHistory) (i : Nat) :
    Guards .indexPanic (gcLoopChecked horizonBE fuel h i) (.ok (gcLoop horizonBE fuel h i)) := by
  induction fuel generalizing h i with
  | zero => exact .refl _
  | succ fuel ih =>
    rw [gcLoopChecked, gcLoop, sliceChecked, removeChecked]
    split
    · split
      · simp only [ok_bind]
        split
        · split
          · exact .stop _
          · exact ih _ _
        · exact ih _ _
      · exact .stop _
    · exact .refl _

lemma gcChecked_guards (h : KeyHistory) (currentKey maxOOO : UInt32) :
    Guards .indexPanic (h.gcChecked currentKey maxOOO) (.ok (h.gc currentKey maxOOO)) := by
  rw [gcChecked, gc]
  split
  · exact .refl _
  · split
    · exact .refl _
    · exact gcLoopChecked_guards _ _ _ _

lemma getLoopChecked_guards (wantBE : Bytes) (h : KeyHistory) (fuel i : Nat) :
    Guards .indexPanic (getLoopChecked wantBE h fuel i) (.ok (getLoop wantBE h fuel i)) := by
  induction fuel generalizing i with
  | zero => exact .refl _
  | succ fuel ih =>
    rw [getLoopChecked, getLoop, sliceChecked, sliceChecked, removeChecked]
    split
    · split
      · simp only [ok_bind]
        split
        · split
          · simp only [ok_bind]
            split
            · exact .stop _
            · exact .refl _
          · exact .stop _
        · exact ih _
      · exact .stop _
    · exact .refl _

lemma getChecked_guards (h : KeyHistory) (idx currentCtr maxOOO : UInt32) :
    Guards .indexPanic (h.getChecked idx currentCtr maxOOO) (h.get idx currentCtr maxOOO) := by
  rw [getChecked, get]
  split
  · exact .refl _
  · exact (getLoopChecked_guards (be32 idx) h h.data.length 0).bind fun _ => .refl _

variable {h : KeyHistory} {i : Nat}

lemma Whole.record (hw : h.Whole) (hi : i % keyHistoryEntry = 0) (hlt : i < h.data.length) :
    i + keyHistoryEntry ≤ h.data.length := by
  rw [Whole, keyHistoryEntry] at *
  omega

lemma Whole.remove (hw : h.Whole) (i : Nat) : (h.remove i).Whole := by
  rw [Whole, length_remove]
  rw [Whole, keyHistoryEntry] at hw
  rw [keyHistoryEntry]
  omega

end KeyHistory

/-! ## Directions and chains -/

section
variable [Hash]

namespace ChainEpochDirection

def advanceToChecked (d : ChainEpochDirection) (idx maxOOO : UInt32) :
    Except Err (Bytes × ChainEpochDirection) := do
  let d0 := if idx > d.ctr + maxOOO then { d with prev := d.prev.clear } else d
  let d1 := skipTo idx maxOOO (idx - d0.ctr).toNat d0
  let prev ← d1.prev.gcChecked d1.ctr maxOOO
  let ((_, k), d3) := { d1 with prev := prev }.nextKeyInternal
  return (k, d3)

def keyChecked (d : ChainEpochDirection) (idx : UInt32) (p : ChainParams) :
    Except Err (Bytes × ChainEpochDirection) :=
  let maxJump := resolveMaxJump (some p)
  let maxOOO := resolveMaxOOO (some p)
  if idx > d.ctr then
    if idx - d.ctr > maxJump then .error (.keyJump d.ctr idx) else d.advanceToChecked idx maxOOO
  else if idx < d.ctr then do
    let (k, prev) ← d.prev.getChecked idx d.ctr maxOOO
    return (k, { d with prev := prev })
  else .error (.keyAlreadyRequested idx)

lemma keyChecked_guards (d : ChainEpochDirection) (idx : UInt32) (p : ChainParams) :
    Guards .indexPanic (d.keyChecked idx p) (d.key idx p) := by
  simp only [keyChecked, key]
  split
  · split
    · exact .refl _
    · simp only [advanceToChecked, advanceTo]
      exact (KeyHistory.gcChecked_guards _ _ _).bind fun _ => .refl _
  · split
    · exact (KeyHistory.getChecked_guards _ _ _ _).bind fun _ => .refl _
    · exact .refl _

end ChainEpochDirection

namespace Chain

def recvKeyChecked (c : Chain) (epoch : UInt64) (index : UInt32) : Except Err (Bytes × Chain) :=
  if epoch = 0 ∧ index = 0 then .ok ([], c)
  else do
    let i ← c.epochIdx epoch
    match c.links[i]? with
    | none => .error .indexPanic
    | some l => do
      let (k, recv) ← l.recv.keyChecked index c.params
      return (k, { c with links := c.links.set i { l with recv := recv } })

def Whole (c : Chain) : Prop := ∀ l ∈ c.links, l.recv.prev.Whole

lemma recvKeyChecked_guards (c : Chain) (epoch : UInt64) (index : UInt32) :
    Guards .indexPanic (c.recvKeyChecked epoch index) (c.recvKey epoch index) := by
  rw [recvKeyChecked, recvKey]
  split
  · exact .refl _
  · refine (Guards.refl _).bind fun i => ?_
    cases c.links[i]? with
    | none => exact .refl _
    | some l => exact (ChainEpochDirection.keyChecked_guards _ _ _).bind fun _ => .refl _

variable {c : Chain}

lemma Whole.addSecret {c' : Chain} {es : Option EpochSecret} (hw : c.Whole) (h : addSecret c es = .ok c') :
    c'.Whole := by
  cases es with
  | none => cases h; exact hw
  | some es =>
    rw [Spqr.addSecret, addEpoch] at h
    split at h
    · cases h
    · cases h
      intro l hl
      rcases List.mem_append.mp hl with hl | hl
      · exact hw l hl
      · cases List.mem_singleton.mp hl
        rfl

end Chain

/-! ## The v1 machine -/

variable [IncrementalKem]

def recvHdrChunkChecked (epoch : UInt64) (auth : Authenticator) (recvingHdr : Decoder) (chunk : Chunk) :
    Except Err RecvStep :=
  let dec := recvingHdr.addChunk chunk
  match dec.decodedMessage with
  | none => .ok (.noHeaderReceived epoch auth dec, none)
  | some decoded =>
    if decoded.length < publicKey1Size then .error .indexPanic else finishHdr epoch auth decoded

def recvCt2ChunkEkSentChecked (epoch : UInt64) (auth : Authenticator) (dk ct1 : Bytes)
    (recvingCt2 : Decoder) (chunk : Chunk) : Except Err RecvStep :=
  let dec := recvingCt2.addChunk chunk
  match dec.decodedMessage with
  | none => .ok (.ekSentCt1Received epoch auth dk ct1 dec, none)
  | some decoded =>
    if decoded.length < ciphertext2Size then .error .indexPanic
    else finishCt2 epoch auth dk ct1 decoded

namespace V1State

def recvChecked (s : V1State) (msg : V1Message) : Except Err RecvStep :=
  match s with
  | .ekSentCt1Received epoch auth dk ct1 dec =>
    s.atEpoch msg
      (match msg.payload with
      | .ct2 chunk => recvCt2ChunkEkSentChecked epoch auth dk ct1 dec chunk
      | _ => .ok (s, none))
  | .noHeaderReceived epoch auth dec =>
    s.atEpoch msg
      (match msg.payload with
      | .hdr chunk => recvHdrChunkChecked epoch auth dec chunk
      | _ => .ok (s, none))
  | s => s.recv msg

end V1State

namespace V1State

omit [Hash] [IncrementalKem] in
lemma atEpoch_guards (s : V1State) (msg : V1Message) {x y : Except Err RecvStep}
    (h : Guards .indexPanic x y) : Guards .indexPanic (s.atEpoch msg x) (s.atEpoch msg y) := by
  rw [atEpoch, atEpoch]
  split
  · exact .refl _
  · split
    · exact h
    · exact .refl _

lemma recvChecked_guards (s : V1State) (msg : V1Message) :
    Guards .indexPanic (s.recvChecked msg) (s.recv msg) := by
  cases s with
  | ekSentCt1Received epoch auth dk ct1 dec =>
    refine atEpoch_guards _ _ ?_
    cases msg.payload with
    | ct2 chunk =>
      simp only [recvCt2ChunkEkSentChecked, recvCt2ChunkEkSent]
      cases (dec.addChunk chunk).decodedMessage with
      | none => exact .refl _
      | some decoded =>
        dsimp only
        split
        · exact .stop _
        · exact .refl _
    | _ => exact .refl _
  | noHeaderReceived epoch auth dec =>
    refine atEpoch_guards _ _ ?_
    cases msg.payload with
    | hdr chunk =>
      simp only [recvHdrChunkChecked, recvHdrChunk]
      cases (dec.addChunk chunk).decodedMessage with
      | none => exact .refl _
      | some decoded =>
        dsimp only
        split
        · exact .stop _
        · exact .refl _
    | _ => exact .refl _
  | _ => exact .refl _

end V1State

def recvHigherChecked (st : PqRatchetState) (index : UInt32) :
    Except Err (PqRatchetState × Option Bytes) := do
  let ch ← chainFrom st.chain st.versionNegotiation
  let (key, ch) ← ch.recvKeyChecked 0 index
  return ({ st with chain := some ch.toProto }, some key)

def recvV1Checked (st : PqRatchetState) (v1pb : V1StatePB) (msg : SerializedMessage) :
    Except Err (PqRatchetState × Option Bytes) := do
  let (sckaMsg, index, _) ← decoded (deserializeMessage msg)
  let v1s ← v1StateFromProto v1pb
  let (s', key) ← v1s.recvChecked sckaMsg
  let ch ← chainFrom st.chain st.versionNegotiation
  let ch ← addSecret ch key
  let (msgKey, ch) ← ch.recvKeyChecked (sckaMsg.epoch - 1) index
  return ({ versionNegotiation := none, chain := some ch.toProto, inner := some (v1StateToProto s') },
    nonEmptyKey msgKey)

def recvStepChecked (st : PqRatchetState) (v1pb : V1StatePB) (preamble : MessagePreamble)
    (msg : SerializedMessage) : Except Err (PqRatchetState × Option Bytes) :=
  if (Int32.ofNat preamble.version.toNat : Version) > stateVersion st then
    recvHigherChecked st preamble.index
  else recvV1Checked st v1pb msg

def recvPqChecked (prest : PqRatchetState) (preamble : MessagePreamble) (msg : SerializedMessage) :
    Except Err (Option PqRatchetState × Option Bytes) := do
  let st ← negotiateRecv prest preamble.version
  match st.inner with
  | none => return (none, none)
  | some v1pb =>
    let (st', key) ← recvStepChecked st v1pb preamble msg
    return (some st', key)

def recvChecked [StateCodec] (state : SerializedState) (msg : SerializedMessage) :
    Except Err RecvResult := do
  let preamble ← decoded (deserializePreamble msg)
  let prest ← decodeState state
  let (st', key) ← recvPqChecked prest preamble msg
  return ⟨match st' with
    | some st' => encodeState st'
    | none => [], key⟩

lemma recvStepChecked_guards (st : PqRatchetState) (pb : V1StatePB) (pre : MessagePreamble)
    (msg : SerializedMessage) :
    Guards .indexPanic (recvStepChecked st pb pre msg) (recvStep st pb pre msg) := by
  rw [recvStepChecked, recvStep]
  split
  · exact (Guards.refl _).bind fun _ => (Chain.recvKeyChecked_guards _ _ _).bind fun _ => .refl _
  · exact (Guards.refl _).bind fun _ => (Guards.refl _).bind fun _ =>
      (V1State.recvChecked_guards _ _).bind fun _ => (Guards.refl _).bind fun _ =>
        (Guards.refl _).bind fun _ => (Chain.recvKeyChecked_guards _ _ _).bind fun _ => .refl _

lemma recvChecked_guards [StateCodec] (b : SerializedState) (msg : SerializedMessage) :
    Guards .indexPanic (recvChecked b msg) (recv b msg) := by
  refine (Guards.refl _).bind fun pre => (Guards.refl _).bind fun st => Guards.bind ?_ fun _ => .refl _
  refine (Guards.refl _).bind fun st' => ?_
  cases st'.inner with
  | none => exact .refl _
  | some pb => exact (recvStepChecked_guards _ _ _ _).bind fun _ => .refl _

end
end LibSignal.Spqr
