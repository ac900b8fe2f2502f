import LibSignal.Spqr.Authenticator

/-!
# The epoch key chain

Model of `spqr/chain.go`: the packed history of skipped keys, one direction of an epoch's key chain, and
the chain of epochs with its send-side trimming.
-/

namespace LibSignal.Spqr
open Chunked Crypto

def chainKeyLen : Nat := 32

def chainNextInfo : Bytes := ascii "Signal PQ Ratchet V1 Chain Next"

def chainStartInfo : Bytes := ascii "Signal PQ Ratchet V1 Chain  Start"

def chainAddEpochInfo : Bytes := ascii "Signal PQ Ratchet V1 Chain Add Epoch"

def keyHistoryEntry : Nat := 36

def slice (b : Bytes) (i j : Nat) : Bytes := (b.drop i).take (j - i)

structure KeyHistory where
  data : Bytes
deriving DecidableEq, Repr

namespace KeyHistory

def add (h : KeyHistory) (idx : UInt32) (key : Bytes) : KeyHistory :=
  ⟨h.data ++ be32 idx ++ key⟩

def clear (_ : KeyHistory) : KeyHistory := ⟨[]⟩

def trimSize (maxOOO : UInt32) : Nat := maxOOO.toNat * 11 / 10 + 1

def remove (h : KeyHistory) (i : Nat) : KeyHistory :=
  let newEnd := h.data.length - keyHistoryEntry
  let moved :=
    if i + keyHistoryEntry < h.data.length then
      h.data.take i ++ h.data.drop newEnd ++ h.data.drop (i + keyHistoryEntry)
    else h.data
  ⟨moved.take newEnd⟩

def gcLoop (horizonBE : Bytes) : Nat → KeyHistory → Nat → KeyHistory
  | 0, h, _ => h
  | fuel + 1, h, i =>
    if i < h.data.length then
      if slice h.data i (i + 4) < horizonBE then gcLoop horizonBE fuel (h.remove i) i
      else gcLoop horizonBE fuel h (i + keyHistoryEntry)
    else h

def gc (h : KeyHistory) (currentKey maxOOO : UInt32) : KeyHistory :=
  if h.data.length < trimSize maxOOO * keyHistoryEntry then h
  else if currentKey < maxOOO then h
  else gcLoop (be32 (currentKey - maxOOO)) h.data.length h 0

def getLoop (wantBE : Bytes) (h : KeyHistory) : Nat → Nat → Option (Bytes × KeyHistory)
  | 0, _ => none
  | fuel + 1, i =>
    if i < h.data.length then
      if slice h.data i (i + 4) = wantBE then
        some (slice h.data (i + 4) (i + keyHistoryEntry), h.remove i)
      else getLoop wantBE h fuel (i + keyHistoryEntry)
    else none

def get (h : KeyHistory) (idx currentCtr maxOOO : UInt32) : Except Err (Bytes × KeyHistory) :=
  if idx + maxOOO < currentCtr then .error (.keyTrimmed idx)
  else
    match getLoop (be32 idx) h h.data.length 0 with
    | some r => .ok r
    | none => .error (.keyAlreadyRequested idx)

end KeyHistory

structure ChainEpochDirection where
  ctr : UInt32
  next : Bytes
  prev : KeyHistory
deriving DecidableEq, Repr

namespace ChainEpochDirection

def new (k : Bytes) : ChainEpochDirection := ⟨0, k, ⟨[]⟩⟩

def clearNext (d : ChainEpochDirection) : ChainEpochDirection := { d with next := [] }

variable [Hash]

def derive (next : Bytes) (ctr : UInt32) : Bytes :=
  hkdfSHA256 next zeroSalt32 (be32 ctr ++ chainNextInfo) 64

def nextKeyInternal (d : ChainEpochDirection) : (UInt32 × Bytes) × ChainEpochDirection :=
  let ctr := d.ctr + 1
  let okm := derive d.next ctr
  ((ctr, slice okm 32 64), { d with ctr := ctr, next := slice okm 0 32 })

def nextKey (d : ChainEpochDirection) : (UInt32 × Bytes) × ChainEpochDirection :=
  d.nextKeyInternal

def skipTo (idx maxOOO : UInt32) : Nat → ChainEpochDirection → ChainEpochDirection
  | 0, d => d
  | fuel + 1, d =>
    if idx > d.ctr + 1 then
      let r := d.nextKeyInternal
      skipTo idx maxOOO fuel
        (if r.2.ctr + maxOOO ≥ idx then { r.2 with prev := r.2.prev.add r.1.1 r.1.2 } else r.2)
    else d

def advanceTo (d : ChainEpochDirection) (idx maxOOO : UInt32) : Bytes × ChainEpochDirection :=
  let d0 := if idx > d.ctr + maxOOO then { d with prev := d.prev.clear } else d
  let d1 := skipTo idx maxOOO (idx - d0.ctr).toNat d0
  let d2 := { d1 with prev := d1.prev.gc d1.ctr maxOOO }
  let ((_, k), d3) := d2.nextKeyInternal
  (k, d3)

def key (d : ChainEpochDirection) (idx : UInt32) (p : ChainParams) :
    Except Err (Bytes × ChainEpochDirection) :=
  let maxJump := resolveMaxJump (some p)
  let maxOOO := resolveMaxOOO (some p)
  if idx > d.ctr then
    if idx - d.ctr > maxJump then .error (.keyJump d.ctr idx) else .ok (d.advanceTo idx maxOOO)
  else if idx < d.ctr then do
    let (k, prev) ← d.prev.get idx d.ctr maxOOO
    return (k, { d with prev := prev })
  else .error (.keyAlreadyRequested idx)

end ChainEpochDirection

/-! ## The chain of epochs -/

structure ChainEpoch where
  send : ChainEpochDirection
  recv : ChainEpochDirection
deriving DecidableEq, Repr

structure EpochSecret where
  epoch : UInt64
  secret : Bytes
deriving DecidableEq, Repr

structure Chain where
  dir : Direction
  currentEpoch : UInt64
  sendEpoch : UInt64
  links : List ChainEpoch
  nextRoot : Bytes
  params : ChainParams
deriving DecidableEq, Repr

def epochsToKeepPriorToSendEpoch : Nat := 1

def seedFor (genr8r : Bytes) : Direction → Bytes
  | .a2b => slice genr8r 32 64
  | .b2a => slice genr8r 64 96

lemma length_seedFor {genr8r : Bytes} (h : genr8r.length = 96) (dir : Direction) :
    (seedFor genr8r dir).length = 32 := by
  cases dir <;> simp [seedFor, slice, h]

def cedForDirection (genr8r : Bytes) (dir : Direction) : ChainEpochDirection :=
  .new (seedFor genr8r dir)

namespace Chain
variable [Hash]

def epochFor (genr8r : Bytes) (dir : Direction) : ChainEpoch :=
  { send := cedForDirection genr8r dir, recv := cedForDirection genr8r (switchDirection dir) }

def new (initialKey : Bytes) (dir : Direction) (params : ChainParams) : Chain :=
  let genr8r := chainHKDF zeroSalt32 initialKey chainStartInfo 96
  { dir := dir, currentEpoch := 0, sendEpoch := 0, links := [epochFor genr8r dir],
    nextRoot := slice genr8r 0 32, params := params }

def addEpoch (c : Chain) (es : EpochSecret) : Except Err Chain :=
  if es.epoch ≠ c.currentEpoch + 1 then .error (.chainDecode (some (es.epoch, c.currentEpoch)))
  else
    let genr8r := chainHKDF c.nextRoot es.secret chainAddEpochInfo 96
    .ok { c with
      currentEpoch := es.epoch
      nextRoot := slice genr8r 0 32
      links := c.links ++ [epochFor genr8r c.dir] }

/-- The position of an epoch in `links`. The distance is converted to a signed integer: a
distance of `2^63` or more becomes negative, passes the range check and makes the callers' slice accesses
panic. -/
def epochIdx (c : Chain) (epoch : UInt64) : Except Err Nat :=
  if epoch > c.currentEpoch then .error (.epochOutOfRange epoch)
  else
    let back : Int := (c.currentEpoch - epoch).toInt64.toInt
    if back ≥ c.links.length then .error (.epochOutOfRange epoch)
    else if back < 0 then .error .indexPanic
    else .ok (c.links.length - 1 - back.toNat)

def popFront : Nat → List ChainEpoch → List ChainEpoch × Nat
  | 0, links => (links, 0)
  | n + 1, links =>
    if n + 1 > epochsToKeepPriorToSendEpoch then popFront n links.tail else (links, n + 1)

def clearBefore (n : Nat) (links : List ChainEpoch) : List ChainEpoch :=
  (links.take n).map (fun l => { l with send := l.send.clearNext }) ++ links.drop n

def moveSendEpoch (c : Chain) (epoch : UInt64) (epochIndex : Nat) : Chain × Nat :=
  if c.sendEpoch ≠ epoch then
    let (links, i) := popFront epochIndex c.links
    ({ c with sendEpoch := epoch, links := clearBefore i links }, i)
  else (c, epochIndex)

def sendKey (c : Chain) (epoch : UInt64) : Except Err ((UInt32 × Bytes) × Chain) :=
  if epoch < c.sendEpoch then .error (.sendKeyEpochDecreased c.sendEpoch epoch)
  else do
    let epochIndex ← c.epochIdx epoch
    let (c', i) := c.moveSendEpoch epoch epochIndex
    match c'.links[i]? with
    | none => .error .indexPanic
    | some l =>
      let (ik, send) := l.send.nextKey
      .ok (ik, { c' with links := c'.links.set i { l with send := send } })

def recvKey (c : Chain) (epoch : UInt64) (index : UInt32) : Except Err (Bytes × Chain) :=
  if epoch = 0 ∧ index = 0 then .ok ([], c)
  else do
    let i ← c.epochIdx epoch
    match c.links[i]? with
    | none => .error .indexPanic
    | some l => do
      let (k, recv) ← l.recv.key index c.params
      return (k, { c with links := c.links.set i { l with recv := recv } })

end Chain

end LibSignal.Spqr
