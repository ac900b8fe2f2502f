import LibSignal.SealedSender.RoundTrip

/-!
# Validation of certificates

Model of the `Validate` methods of `sealedsender/certs.go`.
-/

namespace LibSignal.SealedSender
open Chunked (Bytes)
open Crypto Curve Proto Lib

def revokedServerCertificateKeyIDs : List UInt32 := [0xDEADC357]

def Time.after (t u : Time) : Bool := u.nanos < t.nanos

section
variable [XEdDSA]

def ServerCertificate.validate (c : ServerCertificate) (trustRoot : PublicKey) : Bool :=
  if c.keyID ∈ revokedServerCertificateKeyIDs then false
  else verifySignature trustRoot c.signature c.certificate

def SenderCertificate.validate (c : SenderCertificate) (trustRoot : PublicKey) (now : Time) :
    Except CertErr Bool :=
  match c.signer, c.signerID with
  | none, some id => .error (.unknownServerCertificateID id)
  | none, none => .error .noSigner
  | some signer, _ =>
    if ¬ signer.validate trustRoot then .ok false
    else if ¬ verifySignature signer.key c.signature c.certificate then .ok false
    else if now.after c.expiration then .ok false
    else .ok true

end

def Time.truncated (t : Time) : Time := ⟨t.nanos / 1000000 * 1000000⟩

/-- The milliseconds of a time that is not before the epoch fit 64 bits with a sign. -/
def Time.FitsMillis (t : Time) : Prop := t.nanos / 1000000 < 2 ^ 63

lemma ofUnixMilli_unixMilli {t : Time} (ht : 0 ≤ t.nanos) :
    Time.ofUnixMilli t.unixMilli = t.truncated ↔ t.FitsMillis := by
  rw [Time.ofUnixMilli, Time.truncated, Time.unixMilli, Time.FitsMillis, Time.mk.injEq]
  have hpos : 0 ≤ t.nanos / 1000000 := Int.ediv_nonneg ht (by decide)
  constructor
  · intro h
    have hlt := Int64.toInt_lt (Int64.ofInt (t.nanos / 1000000))
    omega
  · intro h
    rw [Int64.toInt_ofInt_of_le (by omega) (by omega)]

/-! ## Issued certificates -/

section
variable [XEdDSA]

variable {rng : Reader}

lemma verifySignature_calculated [X25519] (hsign : XEdDSA.Complete) {k : KeyPair} (hk : k.Valid)
    {message signature : Bytes} (h : calculateSignature k.privateKey rng message = .ok signature) :
    verifySignature k.publicKey signature message = true := by
  obtain ⟨random, hrandom, h⟩ := bind_eq_ok h
  cases h
  refine hsign k random message hk ?_
  rw [readKeyBytes] at hrandom
  split at hrandom
  · cases hrandom
    exact rng.read_length _ _ ‹_›
  · cases hrandom

lemma newServerCertificate_inv [Wire ServerCertificatePB] [Wire ServerCertificateBodyPB] {keyID : UInt32}
    {key : PublicKey} {trustRoot : PrivateKey} {c : ServerCertificate}
    (h : newServerCertificate keyID key trustRoot rng = .ok c) :
    c.keyID = keyID ∧ c.key = key ∧ calculateSignature trustRoot rng c.certificate = .ok c.signature := by
  obtain ⟨signature, hsig, h⟩ := bind_eq_ok h
  cases h
  exact ⟨rfl, rfl, mapError_eq_ok hsig⟩

variable [Wire SenderCertificatePB] [Wire SenderCertificateBodyPB]
variable {uuid : String} {e164 : Option String} {key : PublicKey} {device : UInt32} {expiration : Time}
  {server : ServerCertificate} {c : SenderCertificate}

structure SenderCertificate.HoldsFields (c : SenderCertificate) (uuid : String) (e164 : Option String)
    (key : PublicKey) (device : UInt32) (server : ServerCertificate) : Prop where
  senderUUID : c.senderUUID = uuid
  senderE164 : c.senderE164 = e164
  key : c.key = key
  senderDeviceID : c.senderDeviceID = device
  signer : c.signer = some server

lemma newSenderCertificate_inv {signerKey : PrivateKey}
    (h : newSenderCertificate uuid e164 key device expiration (some server) signerKey rng = .ok c) :
    c.HoldsFields uuid e164 key device server ∧ c.expiration = .ofUnixMilli expiration.unixMilli ∧
      calculateSignature signerKey rng c.certificate = .ok c.signature := by
  obtain ⟨_, hs, h⟩ := bind_eq_ok h
  cases hs
  dsimp only at h
  split at h
  · cases h
  · obtain ⟨signature, hsig, h⟩ := bind_eq_ok h
    cases h
    exact ⟨⟨rfl, rfl, rfl, rfl, rfl⟩, rfl, mapError_eq_ok hsig⟩

variable [X25519] [Wire ServerCertificatePB] [Wire ServerCertificateBodyPB]
variable {root k : KeyPair} {keyID : UInt32} {rng rng' : Reader}

lemma validate_issued (hsign : XEdDSA.Complete) (hroot : root.Valid) (hk : k.Valid)
    (hserver : newServerCertificate keyID k.publicKey root.privateKey rng = .ok server)
    (hsender : newSenderCertificate uuid e164 key device expiration (some server) k.privateKey rng' = .ok c)
    (now : Time) :
    c.validate root.publicKey now =
      .ok (decide (keyID ∉ revokedServerCertificateKeyIDs) && !now.after c.expiration) := by
  obtain ⟨hid, hkey, hrootSig⟩ := newServerCertificate_inv hserver
  obtain ⟨hfields, _, hsig⟩ := newSenderCertificate_inv hsender
  rw [SenderCertificate.validate, hfields.signer]
  dsimp only
  rw [ServerCertificate.validate, hid, hkey, verifySignature_calculated hsign hroot hrootSig,
    verifySignature_calculated hsign hk hsig]
  by_cases hrevoked : keyID ∈ revokedServerCertificateKeyIDs
  · simp [hrevoked]
  · cases hnow : now.after c.expiration <;> simp [hrevoked]

/-- The certificate that is read back holds the fields it was issued for with the truncated expiration, and
is valid exactly until then, or never with a revoked signer. -/
structure ReadBack (serialized : Bytes) (trustRoot : PublicKey) (uuid : String) (e164 : Option String)
    (key : PublicKey) (device : UInt32) (expiration : Time) (server : ServerCertificate) : Prop where
  fields : ∃ c, deserializeSenderCertificate serialized = .ok c ∧
    c.HoldsFields uuid e164 key device server ∧ c.expiration = expiration.truncated
  valid : ∀ c, deserializeSenderCertificate serialized = .ok c →
    server.keyID ∉ revokedServerCertificateKeyIDs → ∀ now,
      (c.validate trustRoot now = .ok true ↔ now.after expiration.truncated = false)
  revoked : ∀ c, deserializeSenderCertificate serialized = .ok c →
    server.keyID ∈ revokedServerCertificateKeyIDs → ∀ now, c.validate trustRoot now = .ok false

/-- A certificate issued along the chain is read back as it was issued, and valid exactly until its
expiration, if and only if the milliseconds of the expiration fit the wire format. -/
theorem certificate_chain (hsign : XEdDSA.Complete) (hroot : root.Valid) (hk : k.Valid)
    (hserver : newServerCertificate keyID k.publicKey root.privateKey rng = .ok server)
    (hepoch : 0 ≤ expiration.nanos)
    (hsender : newSenderCertificate uuid e164 key device expiration (some server) k.privateKey rng' = .ok c) :
    ReadBack c.serialized root.publicKey uuid e164 key device expiration server ↔ expiration.FitsMillis := by
  obtain ⟨hid, _, _⟩ := newServerCertificate_inv hserver
  obtain ⟨hfields, hexp, _⟩ := newSenderCertificate_inv hsender
  have hreload : deserializeSenderCertificate c.serialized = .ok c :=
    SenderCertificate.Made.reload (.issued (.issued hserver) hsender)
  have hvalid := validate_issued hsign hroot hk hserver hsender
  rw [← ofUnixMilli_unixMilli hepoch, ← hexp]
  constructor
  · rintro ⟨⟨c', hc', _, hexp'⟩, _, _⟩
    rw [hreload] at hc'
    cases hc'
    exact hexp'
  · intro hfits
    refine ⟨⟨c, hreload, hfields, hfits⟩, fun c' hc' hnot now => ?_, fun c' hc' hmem now => ?_⟩
    · rw [hreload] at hc'
      cases hc'
      rw [hid] at hnot
      rw [hvalid, hfits]
      simp [hnot]
    · rw [hreload] at hc'
      cases hc'
      rw [hid] at hmem
      rw [hvalid]
      simp [hmem]

end

/-- The theorem on a certificate that expires after ten seconds. -/
theorem certificate_chain_sample : ∃ (server : ServerCertificate) (c : SenderCertificate),
      @newServerCertificate (unaryWire _) (unaryWire _) zeroXEdDSA 1 oneKeyPair.publicKey
        oneKeyPair.privateKey zeroSource = .ok server ∧
      @newSenderCertificate (unaryWire _) (unaryWire _) zeroXEdDSA "alice" none oneKeyPair.publicKey 1
        ⟨10000000001⟩ (some server) oneKeyPair.privateKey zeroSource = .ok c ∧
      @ReadBack zeroXEdDSA (unaryWire _) (unaryWire _) (unaryWire _) (unaryWire _) c.serialized
        oneKeyPair.publicKey "alice" none oneKeyPair.publicKey 1 ⟨10000000001⟩ server := by
  let _ := zeroXEdDSA
  let _ := oneX25519
  let _ := unaryWire ServerCertificatePB
  let _ := unaryWire ServerCertificateBodyPB
  let _ := unaryWire SenderCertificatePB
  let _ := unaryWire SenderCertificateBodyPB
  obtain ⟨server, hserver⟩ :
      ∃ c, newServerCertificate 1 oneKeyPair.publicKey oneKeyPair.privateKey zeroSource = .ok c := ⟨_, rfl⟩
  obtain ⟨c, hsender⟩ : ∃ c, newSenderCertificate "alice" none oneKeyPair.publicKey 1 ⟨10000000001⟩
      (some server) oneKeyPair.privateKey zeroSource = .ok c := ⟨_, rfl⟩
  have hvalid : oneKeyPair.Valid := rfl
  have hfits : Time.FitsMillis ⟨10000000001⟩ := by
    rw [Time.FitsMillis]
    decide
  exact ⟨server, c, hserver, hsender,
    (certificate_chain (fun _ _ _ _ _ => rfl) hvalid hvalid hserver (by decide) hsender).mpr hfits⟩

/-- A certificate issued to expire `2 ^ 61` seconds after the epoch is read back with an expiration at the
epoch, and is not valid a millisecond later. -/
theorem expiration_wraps :
    ∃ (server : ServerCertificate) (c : SenderCertificate),
      @newServerCertificate (unaryWire _) (unaryWire _) zeroXEdDSA 1 oneKeyPair.publicKey
        oneKeyPair.privateKey zeroSource = .ok server ∧
      @newSenderCertificate (unaryWire _) (unaryWire _) zeroXEdDSA "alice" none oneKeyPair.publicKey 1
        ⟨2 ^ 61 * 1000000000⟩ (some server) oneKeyPair.privateKey zeroSource = .ok c ∧
      @deserializeSenderCertificate (unaryWire _) (unaryWire _) (unaryWire _) (unaryWire _) c.serialized =
        .ok c ∧
      c.expiration = ⟨0⟩ ∧ @SenderCertificate.validate zeroXEdDSA c oneKeyPair.publicKey ⟨1000000⟩ = .ok false := by
  let _ := zeroXEdDSA
  let _ := oneX25519
  let _ := unaryWire ServerCertificatePB
  let _ := unaryWire ServerCertificateBodyPB
  let _ := unaryWire SenderCertificatePB
  let _ := unaryWire SenderCertificateBodyPB
  obtain ⟨server, hserver⟩ :
      ∃ c, newServerCertificate 1 oneKeyPair.publicKey oneKeyPair.privateKey zeroSource = .ok c := ⟨_, rfl⟩
  obtain ⟨c, hsender⟩ : ∃ c, newSenderCertificate "alice" none oneKeyPair.publicKey 1
      ⟨2 ^ 61 * 1000000000⟩ (some server) oneKeyPair.privateKey zeroSource = .ok c := ⟨_, rfl⟩
  obtain ⟨_, hexp, _⟩ := newSenderCertificate_inv hsender
  have hzero : c.expiration = ⟨0⟩ := hexp.trans (by decide)
  refine ⟨server, c, hserver, hsender, SenderCertificate.Made.reload (.issued (.issued hserver) hsender),
    hzero, ?_⟩
  have hvalid : oneKeyPair.Valid := rfl
  rw [validate_issued (fun _ _ _ _ _ => rfl) hvalid hvalid hserver hsender, hzero]
  rfl

end LibSignal.SealedSender
