import LibSignal.Spqr.V1

/-!
# Stored form of the v1 state

Model of `spqr/v1_codec.go`: the conversions between `V1State` and the `V1State` message of the protobuf
schema.
-/

namespace LibSignal.Spqr
open Chunked Crypto

structure UcPlain where
  epoch : UInt64
  auth : Option Authenticator
deriving DecidableEq, Repr

structure UcHeaderSent where
  epoch : UInt64
  auth : Option Authenticator
  ek : Bytes
  dk : Bytes
deriving DecidableEq, Repr

structure UcEkSent where
  epoch : UInt64
  auth : Option Authenticator
  dk : Bytes
deriving DecidableEq, Repr

structure UcEkSentCt1Received where
  epoch : UInt64
  auth : Option Authenticator
  dk : Bytes
  ct1 : Bytes
deriving DecidableEq, Repr

structure UcHeaderReceived where
  epoch : UInt64
  auth : Option Authenticator
  hdr : Bytes
deriving DecidableEq, Repr

structure UcCt1Sent where
  epoch : UInt64
  auth : Option Authenticator
  hdr : Bytes
  es : Bytes
  ct1 : Bytes
deriving DecidableEq, Repr

structure UcCt1SentEkReceived where
  epoch : UInt64
  auth : Option Authenticator
  es : Bytes
  ek : Bytes
  ct1 : Bytes
deriving DecidableEq, Repr

inductive V1StatePB where
  | unset
  | keysUnsampled (uc : Option UcPlain)
  | keysSampled (uc : Option UcHeaderSent) (sendingHdr : Option PolynomialEncoder)
  | headerSent (uc : Option UcEkSent) (sendingEk : Option PolynomialEncoder)
      (receivingCt1 : Option PolynomialDecoder)
  | ct1Received (uc : Option UcEkSentCt1Received) (sendingEk : Option PolynomialEncoder)
  | ekSentCt1Received (uc : Option UcEkSentCt1Received) (receivingCt2 : Option PolynomialDecoder)
  | noHeaderReceived (uc : Option UcPlain) (receivingHdr : Option PolynomialDecoder)
  | headerReceived (uc : Option UcHeaderReceived) (receivingEk : Option PolynomialDecoder)
  | ct1Sampled (uc : Option UcCt1Sent) (sendingCt1 : Option PolynomialEncoder)
      (receivingEk : Option PolynomialDecoder)
  | ekReceivedCt1Sampled (uc : Option UcCt1SentEkReceived) (sendingCt1 : Option PolynomialEncoder)
  | ct1Acknowledged (uc : Option UcCt1Sent) (receivingEk : Option PolynomialDecoder)
  | ct2Sampled (uc : Option UcPlain) (sendingCt2 : Option PolynomialEncoder)
deriving DecidableEq, Repr

def v1StateToProto : V1State → V1StatePB
  | .keysUnsampled e a => .keysUnsampled (some ⟨e, some a⟩)
  | .keysSampled e a ek dk enc => .keysSampled (some ⟨e, some a, ek, dk⟩) (some (encoderToProto enc))
  | .headerSent e a _ dk enc dec =>
    .headerSent (some ⟨e, some a, dk⟩) (some (encoderToProto enc)) (some (decoderToProto dec))
  | .ct1Received e a _ dk ct1 enc =>
    .ct1Received (some ⟨e, some a, dk, ct1⟩) (some (encoderToProto enc))
  | .ekSentCt1Received e a dk ct1 dec =>
    .ekSentCt1Received (some ⟨e, some a, dk, ct1⟩) (some (decoderToProto dec))
  | .noHeaderReceived e a dec => .noHeaderReceived (some ⟨e, some a⟩) (some (decoderToProto dec))
  | .headerReceived e a hdr dec =>
    .headerReceived (some ⟨e, some a, hdr⟩) (some (decoderToProto dec))
  | .ct1Sampled e a hdr es ct1 enc dec =>
    .ct1Sampled (some ⟨e, some a, hdr, es, ct1⟩) (some (encoderToProto enc))
      (some (decoderToProto dec))
  | .ekReceivedCt1Sampled e a es ek ct1 enc =>
    .ekReceivedCt1Sampled (some ⟨e, some a, es, ek, ct1⟩) (some (encoderToProto enc))
  | .ct1Acknowledged e a hdr es ct1 dec =>
    .ct1Acknowledged (some ⟨e, some a, hdr, es, ct1⟩) (some (decoderToProto dec))
  | .ct2Sampled e a enc => .ct2Sampled (some ⟨e, some a⟩) (some (encoderToProto enc))

def authFrom : Option Authenticator → Authenticator
  | some a => a
  | none => ⟨[], []⟩

/-- Require a sub-message (`uc == nil` checks). -/
def required {α : Type} : Option α → Except Err α
  | some a => .ok a
  | none => .error (.v1StateDecode none)

def decEncoder (pb : Option PolynomialEncoder) : Except Err Encoder := do
  let pb ← required pb
  (encoderFromProto pb).mapError fun e => .v1StateDecode (some e)

def decDecoder (pb : Option PolynomialDecoder) : Except Err Decoder := do
  let pb ← required pb
  (decoderFromProto pb).mapError fun e => .v1StateDecode (some e)

def v1StateFromProto : V1StatePB → Except Err V1State
  | .unset => .error (.v1StateDecode none)
  | .keysUnsampled uc => do
    let uc ← required uc
    return .keysUnsampled uc.epoch (authFrom uc.auth)
  | .keysSampled uc hdr => do
    let uc ← required uc
    let enc ← decEncoder hdr
    return .keysSampled uc.epoch (authFrom uc.auth) uc.ek uc.dk enc
  | .headerSent uc ek ct1 => do
    let uc ← required uc
    let enc ← decEncoder ek
    let dec ← decDecoder ct1
    return .headerSent uc.epoch (authFrom uc.auth) [] uc.dk enc dec
  | .ct1Received uc ek => do
    let uc ← required uc
    let enc ← decEncoder ek
    return .ct1Received uc.epoch (authFrom uc.auth) [] uc.dk uc.ct1 enc
  | .ekSentCt1Received uc ct2 => do
    let uc ← required uc
    let dec ← decDecoder ct2
    return .ekSentCt1Received uc.epoch (authFrom uc.auth) uc.dk uc.ct1 dec
  | .noHeaderReceived uc hdr => do
    let uc ← required uc
    let dec ← decDecoder hdr
    return .noHeaderReceived uc.epoch (authFrom uc.auth) dec
  | .headerReceived uc ek => do
    let uc ← required uc
    let dec ← decDecoder ek
    return .headerReceived uc.epoch (authFrom uc.auth) uc.hdr dec
  | .ct1Sampled uc ct1 ek => do
    let uc ← required uc
    let enc ← decEncoder ct1
    let dec ← decDecoder ek
    return .ct1Sampled uc.epoch (authFrom uc.auth) uc.hdr uc.es uc.ct1 enc dec
  | .ekReceivedCt1Sampled uc ct1 => do
    let uc ← required uc
    let enc ← decEncoder ct1
    return .ekReceivedCt1Sampled uc.epoch (authFrom uc.auth) uc.es uc.ek uc.ct1 enc
  | .ct1Acknowledged uc ek => do
    let uc ← required uc
    let dec ← decDecoder ek
    return .ct1Acknowledged uc.epoch (authFrom uc.auth) uc.hdr uc.es uc.ct1 dec
  | .ct2Sampled uc ct2 => do
    let uc ← required uc
    let enc ← decEncoder ct2
    return .ct2Sampled uc.epoch (authFrom uc.auth) enc

end LibSignal.Spqr
