import LibSignal.Curve.Keys
import LibSignal.Proto.Codec

/-!
# Sealed sender certificates

Model of `sealedsender/certs.go`, as far as messages depend on it: server and sender certificates, how they
are issued and how they are parsed.
-/

namespace LibSignal.SealedSender
open Chunked (Bytes)
open Crypto Curve Proto Lib

/-- The errors of certificates. All but the last three are `ErrInvalidCertificate` with the given text. -/
inductive CertErr where
  | serverProtobuf
  | serverMissing
  | serverBodyProtobuf
  | serverBodyMissing
  | serverKey (cause : CurveErr)
  | senderProtobuf
  | senderMissing
  | senderBodyProtobuf
  | senderDevice
  | senderExpiration
  | senderIdentityKey
  | senderKey (cause : CurveErr)
  | embeddedServer (cause : CertErr)
  | senderSigner
  | senderUuidBytes (got : Nat)
  | senderUuid
  /-- nil signer -/
  | nilSigner
  | beforeEpoch
  | noSigner
  | signServer (cause : CurveErr)
  | signSender (cause : CurveErr)
  | unknownServerCertificateID (id : UInt32)
deriving DecidableEq, Repr

structure ServerCertificatePB where
  certificate : Option Bytes
  signature : Option Bytes
deriving DecidableEq, Repr

structure ServerCertificateBodyPB where
  id : Option UInt32
  key : Option Bytes
deriving DecidableEq, Repr

structure SenderCertificatePB where
  certificate : Option Bytes
  signature : Option Bytes
deriving DecidableEq, Repr

inductive SenderUuidPB where
  | uuidString (s : String)
  | uuidBytes (b : Bytes)
deriving DecidableEq, Repr

inductive SignerPB where
  | certificate (b : Bytes)
  | id (id : UInt32)
deriving DecidableEq, Repr

structure SenderCertificateBodyPB where
  senderE164 : Option String
  senderUuid : Option SenderUuidPB
  senderDevice : Option UInt32
  expires : Option UInt64
  identityKey : Option Bytes
  signer : Option SignerPB
deriving DecidableEq, Repr

def orError {ε α : Type} (e : ε) : Option α → Except ε α
  | some a => .ok a
  | none => .error e

structure ServerCertificate where
  keyID : UInt32
  key : PublicKey
  certificate : Bytes
  signature : Bytes
  serialized : Bytes
deriving DecidableEq, Repr

section
variable [Wire ServerCertificatePB] [Wire ServerCertificateBodyPB]

def deserializeServerCertificate (data : Bytes) : Except CertErr ServerCertificate := do
  let pb ← orError .serverProtobuf (unmarshal (α := ServerCertificatePB) data)
  let certificate ← orError .serverMissing pb.certificate
  let signature ← orError .serverMissing pb.signature
  let certData ← orError .serverBodyProtobuf (unmarshal (α := ServerCertificateBodyPB) certificate)
  let id ← orError .serverBodyMissing certData.id
  let keyBytes ← orError .serverBodyMissing certData.key
  let key ← (deserializePublicKey keyBytes).mapError .serverKey
  return ⟨id, key, certificate, signature, data⟩

variable [XEdDSA]

def newServerCertificate (keyID : UInt32) (key : PublicKey) (trustRoot : PrivateKey) (rng : Reader) :
    Except CertErr ServerCertificate := do
  let certificate := marshal (⟨some keyID, some key.serialize⟩ : ServerCertificateBodyPB)
  let signature ← (calculateSignature trustRoot rng certificate).mapError .signServer
  let serialized := marshal (⟨some certificate, some signature⟩ : ServerCertificatePB)
  return ⟨keyID, key, certificate, signature, serialized⟩

inductive ServerCertificate.Made : ServerCertificate → Prop
  | issued {keyID : UInt32} {key : PublicKey} {trustRoot : PrivateKey} {rng : Reader}
      {c : ServerCertificate} (h : newServerCertificate keyID key trustRoot rng = .ok c) : Made c
  | parsed {data : Bytes} {c : ServerCertificate} (h : deserializeServerCertificate data = .ok c) :
      Made c

omit [XEdDSA] in
lemma deserializeServerCertificate_serialized {data : Bytes} {c : ServerCertificate}
    (h : deserializeServerCertificate data = .ok c) : c.serialized = data := by
  repeat obtain ⟨_, _, h⟩ := bind_eq_ok h
  cases h
  rfl

lemma ServerCertificate.Made.reload {c : ServerCertificate} (h : c.Made) :
    deserializeServerCertificate c.serialized = .ok c := by
  cases h with
  | parsed h =>
    have hdata := deserializeServerCertificate_serialized h
    rw [hdata]
    exact h
  | issued h =>
    obtain ⟨signature, _, h⟩ := bind_eq_ok h
    cases h
    simp [deserializeServerCertificate, orError, deserializePublicKey_serialize]

end

/-! ## Sender certificates -/

structure Time where
  nanos : Int
deriving DecidableEq, Repr

def Time.unixMilli (t : Time) : Int64 := Int64.ofInt (t.nanos / 1000000)

def Time.ofUnixMilli (ms : Int64) : Time := ⟨ms.toInt * 1000000⟩

structure SenderCertificate where
  signer : Option ServerCertificate
  signerID : Option UInt32
  key : PublicKey
  senderDeviceID : UInt32
  senderUUID : String
  senderE164 : Option String
  expiration : Time
  certificate : Bytes
  signature : Bytes
  serialized : Bytes
deriving DecidableEq, Repr

def hexByte (b : UInt8) : List Char := [Nat.digitChar (b.toNat / 16), Nat.digitChar (b.toNat % 16)]

def uuidStringFromBytes (b : Bytes) : Except CertErr String :=
  if b.length ≠ 16 then .error (.senderUuidBytes b.length)
  else
    let h := b.flatMap hexByte
    let part (i j : Nat) : List Char := (h.take j).drop i
    .ok (String.ofList (part 0 8 ++ ['-'] ++ part 8 12 ++ ['-'] ++ part 12 16 ++ ['-'] ++ part 16 20 ++
      ['-'] ++ part 20 32))

section
variable [Wire ServerCertificatePB] [Wire ServerCertificateBodyPB] [Wire SenderCertificatePB]
  [Wire SenderCertificateBodyPB]

def readSigner : Option SignerPB → Except CertErr (Option ServerCertificate × Option UInt32)
  | some (.certificate b) => do
    let sc ← (deserializeServerCertificate b).mapError .embeddedServer
    return (some sc, none)
  | some (.id id) => .ok (none, some id)
  | none => .error .senderSigner

omit [Wire ServerCertificatePB] [Wire ServerCertificateBodyPB] [Wire SenderCertificatePB]
  [Wire SenderCertificateBodyPB] in
def readUuid : Option SenderUuidPB → Except CertErr String
  | some (.uuidString s) => .ok s
  | some (.uuidBytes b) => uuidStringFromBytes b
  | none => .error .senderUuid

def deserializeSenderCertificate (data : Bytes) : Except CertErr SenderCertificate := do
  let pb ← orError .senderProtobuf (unmarshal (α := SenderCertificatePB) data)
  let certificate ← orError .senderMissing pb.certificate
  let signature ← orError .senderMissing pb.signature
  let certData ← orError .senderBodyProtobuf (unmarshal (α := SenderCertificateBodyPB) certificate)
  let device ← orError .senderDevice certData.senderDevice
  let expires ← orError .senderExpiration certData.expires
  let identityKey ← orError .senderIdentityKey certData.identityKey
  let key ← (deserializePublicKey identityKey).mapError .senderKey
  let (signer, signerID) ← readSigner certData.signer
  let uuid ← readUuid certData.senderUuid
  return { signer := signer, signerID := signerID, key := key, senderDeviceID := device,
           senderUUID := uuid, senderE164 := certData.senderE164,
           expiration := .ofUnixMilli expires.toInt64, certificate := certificate,
           signature := signature, serialized := data }

variable [XEdDSA]

def newSenderCertificate (senderUUID : String) (senderE164 : Option String) (key : PublicKey)
    (senderDeviceID : UInt32) (expiration : Time) (signer : Option ServerCertificate)
    (signerKey : PrivateKey) (rng : Reader) : Except CertErr SenderCertificate := do
  let signer ← orError .nilSigner signer
  let expirationMillis := expiration.unixMilli
  if expirationMillis < 0 then .error .beforeEpoch
  else do
    let certificate := marshal
      ({ senderE164 := senderE164, senderUuid := some (.uuidString senderUUID),
         senderDevice := some senderDeviceID, expires := some expirationMillis.toUInt64,
         identityKey := some key.serialize, signer := some (.certificate signer.serialized) } :
        SenderCertificateBodyPB)
    let signature ← (calculateSignature signerKey rng certificate).mapError .signSender
    let serialized := marshal (⟨some certificate, some signature⟩ : SenderCertificatePB)
    return { signer := some signer, signerID := none, key := key, senderDeviceID := senderDeviceID,
             senderUUID := senderUUID, senderE164 := senderE164,
             expiration := .ofUnixMilli expirationMillis, certificate := certificate,
             signature := signature, serialized := serialized }

inductive SenderCertificate.Made : SenderCertificate → Prop
  | issued {uuid : String} {e164 : Option String} {key : PublicKey} {device : UInt32}
      {expiration : Time} {signer : ServerCertificate} {signerKey : PrivateKey} {rng : Reader}
      {c : SenderCertificate} (hsigner : signer.Made)
      (h : newSenderCertificate uuid e164 key device expiration (some signer) signerKey rng = .ok c) :
      Made c
  | parsed {data : Bytes} {c : SenderCertificate} (h : deserializeSenderCertificate data = .ok c) :
      Made c

omit [XEdDSA] in
lemma deserializeSenderCertificate_serialized {data : Bytes} {c : SenderCertificate}
    (h : deserializeSenderCertificate data = .ok c) : c.serialized = data := by
  repeat obtain ⟨_, _, h⟩ := bind_eq_ok h
  cases h
  rfl

lemma SenderCertificate.Made.reload {c : SenderCertificate} (h : c.Made) :
    deserializeSenderCertificate c.serialized = .ok c := by
  cases h with
  | parsed h =>
    have hdata := deserializeSenderCertificate_serialized h
    rw [hdata]
    exact h
  | @issued uuid e164 key device expiration signer signerKey rng _ hsigner h =>
    obtain ⟨_, hs, h⟩ := bind_eq_ok h
    cases hs
    dsimp only at h
    split at h
    · cases h
    · obtain ⟨signature, _, h⟩ := bind_eq_ok h
      cases h
      simp [deserializeSenderCertificate, orError, deserializePublicKey_serialize, readSigner,
        readUuid, hsigner.reload]

end

end LibSignal.SealedSender
