import LibSignal.Chunked.Transport
import LibSignal.Spqr.Chain
import LibSignal.Spqr.Message

/-!
# The v1 state machine

Model of `spqr/v1.go`.
-/

namespace LibSignal.Spqr
open Chunked Crypto

def sckaKeyInfo : Bytes := ascii "Signal_PQCKA_V1_MLKEM768:SCKA Key"

inductive V1State where
  | keysUnsampled (epoch : UInt64) (auth : Authenticator)
  | keysSampled (epoch : UInt64) (auth : Authenticator) (ek dk : Bytes) (sendingHdr : Encoder)
  | headerSent (epoch : UInt64) (auth : Authenticator) (ek dk : Bytes) (sendingEk : Encoder)
      (recvingCt1 : Decoder)
  | ct1Received (epoch : UInt64) (auth : Authenticator) (ek dk ct1 : Bytes) (sendingEk : Encoder)
  | ekSentCt1Received (epoch : UInt64) (auth : Authenticator) (dk ct1 : Bytes)
      (recvingCt2 : Decoder)
  | noHeaderReceived (epoch : UInt64) (auth : Authenticator) (recvingHdr : Decoder)
  | headerReceived (epoch : UInt64) (auth : Authenticator) (hdr : Bytes) (recvingEk : Decoder)
  | ct1Sampled (epoch : UInt64) (auth : Authenticator) (hdr es ct1 : Bytes) (sendingCt1 : Encoder)
      (recvingEk : Decoder)
  | ekReceivedCt1Sampled (epoch : UInt64) (auth : Authenticator) (es ek ct1 : Bytes)
      (sendingCt1 : Encoder)
  | ct1Acknowledged (epoch : UInt64) (auth : Authenticator) (hdr es ct1 : Bytes)
      (recvingEk : Decoder)
  | ct2Sampled (epoch : UInt64) (auth : Authenticator) (sendingCt2 : Encoder)

inductive Tag where
  | keysUnsampled
  | keysSampled
  | headerSent
  | ct1Received
  | ekSentCt1Received
  | noHeaderReceived
  | headerReceived
  | ct1Sampled
  | ekReceivedCt1Sampled
  | ct1Acknowledged
  | ct2Sampled
deriving DecidableEq, Repr

namespace V1State

def tag : V1State → Tag
  | keysUnsampled .. => .keysUnsampled
  | keysSampled .. => .keysSampled
  | headerSent .. => .headerSent
  | ct1Received .. => .ct1Received
  | ekSentCt1Received .. => .ekSentCt1Received
  | noHeaderReceived .. => .noHeaderReceived
  | headerReceived .. => .headerReceived
  | ct1Sampled .. => .ct1Sampled
  | ekReceivedCt1Sampled .. => .ekReceivedCt1Sampled
  | ct1Acknowledged .. => .ct1Acknowledged
  | ct2Sampled .. => .ct2Sampled

def epoch : V1State → UInt64
  | keysUnsampled e .. | keysSampled e .. | headerSent e .. | ct1Received e ..
  | ekSentCt1Received e .. | noHeaderReceived e .. | headerReceived e .. | ct1Sampled e ..
  | ekReceivedCt1Sampled e .. | ct1Acknowledged e .. | ct2Sampled e .. => e

end V1State

def hdrMsgSize : Nat := publicKey1Size + authMACSize

def ct2MsgSize : Nat := ciphertext2Size + authMACSize

section
variable [Hash]

def newSendEkState (authKey : Bytes) : V1State := .keysUnsampled 1 (.new authKey 1)

/-- The initial `send_ct` state. The source drops the decoder's error, which an even
length never causes. -/
def newSendCtState (authKey : Bytes) : V1State :=
  .noHeaderReceived 1 (.new authKey 1) (.empty hdrMsgSize)

def sckaKey (ss : Bytes) (epoch : UInt64) : Bytes :=
  chainHKDF zeroSalt32 ss (sckaKeyInfo ++ be64 epoch) 32

def makeEncoder (msg : Bytes) : Except Err Encoder := (newEncoder msg).mapError .chunk

def makeDecoder (msgLen : Nat) : Except Err Decoder := (newDecoder msgLen).mapError .chunk

def readFull (rng : Reader) (n : Nat) : Except Err Bytes :=
  match rng.read n with
  | some b => .ok b
  | none => .error .randomSource

end

/-- What a send step yields: the new state, the payload and an epoch secret if one was produced. -/
abbrev SendStep := V1State × Payload × Option EpochSecret

/-- What a receive step yields: the new state and an epoch secret if one was produced. -/
abbrev RecvStep := V1State × Option EpochSecret

section Transitions
variable [Hash] [IncrementalKem]

def sendHdrChunk (epoch : UInt64) (auth : Authenticator) (rng : Reader) : Except Err SendStep := do
  let seed ← readFull rng seedSize
  let keys ← (generateIncrementalKey seed).mapError .kem
  let enc ← makeEncoder (keys.pk1 ++ auth.macHdr epoch keys.pk1)
  let (chunk, enc) := enc.nextChunk
  return (.keysSampled epoch auth keys.pk2 keys.dk enc, .hdr chunk, none)

def recvCt1ChunkKeysSampled (epoch : UInt64) (auth : Authenticator) (ek dk : Bytes) (chunk : Chunk) :
    Except Err RecvStep := do
  let dec ← makeDecoder ciphertext1Size
  let enc ← makeEncoder ek
  return (.headerSent epoch auth ek dk enc (dec.addChunk chunk), none)

def recvCt1ChunkHeaderSent (epoch : UInt64) (auth : Authenticator) (ek dk : Bytes)
    (sendingEk : Encoder) (recvingCt1 : Decoder) (chunk : Chunk) : V1State :=
  let dec := recvingCt1.addChunk chunk
  match dec.decodedMessage with
  | none => .headerSent epoch auth ek dk sendingEk dec
  | some ct1 => .ct1Received epoch auth ek dk ct1 sendingEk

def recvCt2ChunkCt1Received (epoch : UInt64) (auth : Authenticator) (dk ct1 : Bytes)
    (chunk : Chunk) : Except Err RecvStep := do
  let dec ← makeDecoder ct2MsgSize
  return (.ekSentCt1Received epoch auth dk ct1 (dec.addChunk chunk), none)

def finishCt2 (epoch : UInt64) (auth : Authenticator) (dk ct1 decoded : Bytes) :
    Except Err RecvStep := do
  let ct2 := decoded.take ciphertext2Size
  let mac := decoded.drop ciphertext2Size
  let ss ← (decapsulateCompressedKey dk ct1 ct2).mapError .kem
  let secret := sckaKey ss epoch
  let auth := auth.update epoch secret
  auth.verifyCt epoch (ct1 ++ ct2) mac
  let dec ← makeDecoder hdrMsgSize
  return (.noHeaderReceived (epoch + 1) auth dec, some ⟨epoch, secret⟩)

def recvCt2ChunkEkSent (epoch : UInt64) (auth : Authenticator) (dk ct1 : Bytes)
    (recvingCt2 : Decoder) (chunk : Chunk) : Except Err RecvStep :=
  let dec := recvingCt2.addChunk chunk
  match dec.decodedMessage with
  | none => .ok (.ekSentCt1Received epoch auth dk ct1 dec, none)
  | some decoded => finishCt2 epoch auth dk ct1 decoded

def finishHdr (epoch : UInt64) (auth : Authenticator) (decoded : Bytes) : Except Err RecvStep := do
  let hdr := decoded.take publicKey1Size
  let mac := decoded.drop publicKey1Size
  auth.verifyHdr epoch hdr mac
  let dec ← makeDecoder publicKey2Size
  return (.headerReceived epoch auth hdr dec, none)

def recvHdrChunk (epoch : UInt64) (auth : Authenticator) (recvingHdr : Decoder) (chunk : Chunk) :
    Except Err RecvStep :=
  let dec := recvingHdr.addChunk chunk
  match dec.decodedMessage with
  | none => .ok (.noHeaderReceived epoch auth dec, none)
  | some decoded => finishHdr epoch auth decoded

def sendCt1 (epoch : UInt64) (auth : Authenticator) (hdr : Bytes) (recvingEk : Decoder)
    (rng : Reader) : Except Err SendStep := do
  let m ← readFull rng 32
  let res ← (encapsulate1Internal hdr m).mapError .kem
  let secret := sckaKey res.sharedSecret epoch
  let auth := auth.update epoch secret
  let enc ← makeEncoder res.ciphertext1
  let (chunk, enc) := enc.nextChunk
  return (.ct1Sampled epoch auth hdr res.encapsState res.ciphertext1 enc recvingEk, .ct1 chunk,
    some ⟨epoch, secret⟩)

def validateEk (hdr ek : Bytes) : Except Err Unit :=
  (validatePublicKeyParts hdr ek).mapError .erroneousData

def toCt2Sampled (epoch : UInt64) (auth : Authenticator) (es ct1 ek : Bytes) :
    Except Err RecvStep := do
  let ct2 ← (encapsulate2 es ek).mapError .kem
  let enc ← makeEncoder (ct2 ++ auth.macCt epoch (ct1 ++ ct2))
  return (.ct2Sampled epoch auth enc, none)

def recvEkChunkCt1Sampled (epoch : UInt64) (auth : Authenticator) (hdr es ct1 : Bytes)
    (sendingCt1 : Encoder) (recvingEk : Decoder) (chunk : Chunk) (ack : Bool) :
    Except Err RecvStep :=
  let dec := recvingEk.addChunk chunk
  match dec.decodedMessage, ack with
  | none, false => .ok (.ct1Sampled epoch auth hdr es ct1 sendingCt1 dec, none)
  | none, true => .ok (.ct1Acknowledged epoch auth hdr es ct1 dec, none)
  | some ek, false => do
    validateEk hdr ek
    return (.ekReceivedCt1Sampled epoch auth es ek ct1 sendingCt1, none)
  | some ek, true => do
    validateEk hdr ek
    toCt2Sampled epoch auth es ct1 ek

def recvEkChunkCt1Acknowledged (epoch : UInt64) (auth : Authenticator) (hdr es ct1 : Bytes)
    (recvingEk : Decoder) (chunk : Chunk) : Except Err RecvStep :=
  let dec := recvingEk.addChunk chunk
  match dec.decodedMessage with
  | none => .ok (.ct1Acknowledged epoch auth hdr es ct1 dec, none)
  | some ek => do
    validateEk hdr ek
    toCt2Sampled epoch auth es ct1 ek

/-! ## Dispatch -/

namespace V1State

def sendStep (s : V1State) (rng : Reader) : Except Err SendStep :=
  match s with
  | .keysUnsampled epoch auth => sendHdrChunk epoch auth rng
  | .keysSampled epoch auth ek dk enc =>
    let (chunk, enc) := enc.nextChunk
    .ok (.keysSampled epoch auth ek dk enc, .hdr chunk, none)
  | .headerSent epoch auth ek dk enc dec =>
    let (chunk, enc) := enc.nextChunk
    .ok (.headerSent epoch auth ek dk enc dec, .ek chunk, none)
  | .ct1Received epoch auth ek dk ct1 enc =>
    let (chunk, enc) := enc.nextChunk
    .ok (.ct1Received epoch auth ek dk ct1 enc, .ekCt1Ack chunk, none)
  | .ekSentCt1Received .. => .ok (s, .ct1Ack true, none)
  | .noHeaderReceived .. => .ok (s, .none, none)
  | .headerReceived epoch auth hdr dec => sendCt1 epoch auth hdr dec rng
  | .ct1Sampled epoch auth hdr es ct1 enc dec =>
    let (chunk, enc) := enc.nextChunk
    .ok (.ct1Sampled epoch auth hdr es ct1 enc dec, .ct1 chunk, none)
  | .ekReceivedCt1Sampled epoch auth es ek ct1 enc =>
    let (chunk, enc) := enc.nextChunk
    .ok (.ekReceivedCt1Sampled epoch auth es ek ct1 enc, .ct1 chunk, none)
  | .ct1Acknowledged .. => .ok (s, .none, none)
  | .ct2Sampled epoch auth enc =>
    let (chunk, enc) := enc.nextChunk
    .ok (.ct2Sampled epoch auth enc, .ct2 chunk, none)

def send (s : V1State) (rng : Reader) : Except Err (V1State × V1Message × Option EpochSecret) := do
  let (s', payload, key) ← s.sendStep rng
  return (s', ⟨s.epoch, payload⟩, key)

/-- The epoch test shared by all states but `ct2Sampled`: a newer epoch is an error, an older one is
ignored. -/
def atEpoch (s : V1State) (msg : V1Message) (here : Except Err RecvStep) : Except Err RecvStep :=
  if msg.epoch > s.epoch then .error (.epochOutOfRangeV1 msg.epoch)
  else if msg.epoch = s.epoch then here
  else .ok (s, none)

def recv (s : V1State) (msg : V1Message) : Except Err RecvStep :=
  match s with
  | .keysUnsampled .. => s.atEpoch msg (.ok (s, none))
  | .keysSampled epoch auth ek dk _ =>
    s.atEpoch msg
      (match msg.payload with
      | .ct1 chunk => recvCt1ChunkKeysSampled epoch auth ek dk chunk
      | _ => .ok (s, none))
  | .headerSent epoch auth ek dk enc dec =>
    s.atEpoch msg
      (match msg.payload with
      | .ct1 chunk => .ok (recvCt1ChunkHeaderSent epoch auth ek dk enc dec chunk, none)
      | _ => .ok (s, none))
  | .ct1Received epoch auth _ dk ct1 _ =>
    s.atEpoch msg
      (match msg.payload with
      | .ct2 chunk => recvCt2ChunkCt1Received epoch auth dk ct1 chunk
      | _ => .ok (s, none))
  | .ekSentCt1Received epoch auth dk ct1 dec =>
    s.atEpoch msg
      (match msg.payload with
      | .ct2 chunk => recvCt2ChunkEkSent epoch auth dk ct1 dec chunk
      | _ => .ok (s, none))
  | .noHeaderReceived epoch auth dec =>
    s.atEpoch msg
      (match msg.payload with
      | .hdr chunk => recvHdrChunk epoch auth dec chunk
      | _ => .ok (s, none))
  | .headerReceived .. => s.atEpoch msg (.ok (s, none))
  | .ct1Sampled epoch auth hdr es ct1 enc dec =>
    s.atEpoch msg
      (match msg.payload with
      | .ek chunk => recvEkChunkCt1Sampled epoch auth hdr es ct1 enc dec chunk false
      | .ekCt1Ack chunk => recvEkChunkCt1Sampled epoch auth hdr es ct1 enc dec chunk true
      | _ => .ok (s, none))
  | .ekReceivedCt1Sampled epoch auth es ek ct1 _ =>
    s.atEpoch msg
      (match msg.payload with
      | .ekCt1Ack _ => toCt2Sampled epoch auth es ct1 ek
      | .ct1Ack true => toCt2Sampled epoch auth es ct1 ek
      | _ => .ok (s, none))
  | .ct1Acknowledged epoch auth hdr es ct1 dec =>
    s.atEpoch msg
      (match msg.payload with
      | .ek chunk | .ekCt1Ack chunk => recvEkChunkCt1Acknowledged epoch auth hdr es ct1 dec chunk
      | _ => .ok (s, none))
  | .ct2Sampled epoch auth _ =>
    if msg.epoch > epoch then
      if msg.epoch = epoch + 1 then .ok (.keysUnsampled msg.epoch auth, none)
      else .error (.epochOutOfRangeV1 msg.epoch)
    else .ok (s, none)

end V1State

end Transitions

end LibSignal.Spqr
