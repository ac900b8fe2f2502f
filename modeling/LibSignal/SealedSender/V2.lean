import LibSignal.Address.ServiceId
import LibSignal.SealedSender.V1
import LibSignal.Spqr.Message

/-!
# Sealed sender, version 2

Model of `sealedsender/v2.go` and `sealedsender/decrypt.go`: the shared seed masked for every recipient, the
authentication tag, the multi-recipient SENT form and the RECEIVED form of each recipient.
-/

namespace LibSignal.SealedSender
open Chunked (Bytes)
open Crypto Curve Proto Lib Address

def v2LabelR : Bytes := ascii "Sealed Sender v2: r (2023-08)"
def v2LabelK : Bytes := ascii "Sealed Sender v2: K"
def v2LabelDH : Bytes := ascii "Sealed Sender v2: DH"
def v2LabelDHS : Bytes := ascii "Sealed Sender v2: DH-sender"

def v2MessageKeyLen : Nat := 32
def v2CipherKeyLen : Nat := 32
def v2AuthTagLen : Nat := 16
def v2PublicKeyLen : Nat := 32
def gcmsivNonceLen : Nat := 12

def sealedSenderV2FullVersion : UInt8 := 0x22
def sealedSenderV2ServiceIDSentVersion : UInt8 := 0x23

def validRegistrationIDMask : UInt32 := 0x3FFF
def hasMoreDevicesFlag : UInt16 := 0x8000

section
variable [Hash] [X25519]

def deriveE (m : Bytes) : Except SealErr KeyPair := do
  let r := hkdfSHA256 m [] v2LabelR v2PublicKeyLen
  let priv ← (deserializePrivateKey r).mapError .v2DeriveE
  (keyPairFromPrivateKey priv).mapError .v2DeriveE

omit [X25519] in
def deriveK (m : Bytes) : Bytes := hkdfSHA256 m [] v2LabelK v2CipherKeyLen

def inOrder (dir : SealDirection) (ourPub theirPub : Bytes) : Bytes :=
  match dir with
  | .sending => ourPub ++ theirPub
  | .receiving => theirPub ++ ourPub

def applyAgreementXor (ourKeys : KeyPair) (theirKey : PublicKey) (dir : SealDirection) (input : Bytes) :
    Except SealErr Bytes :=
  if input.length ≠ v2MessageKeyLen then .error (.v2AgreementInput input.length)
  else do
    let agreement ← (ourKeys.privateKey.calculateAgreement theirKey).mapError .agreement
    let ikm := agreement ++ inOrder dir ourKeys.publicKey.serialize theirKey.serialize
    let stream := hkdfSHA256 ikm [] v2LabelDH v2MessageKeyLen
    return xorBytes stream input

def authTagInput (ourIdentity : KeyPair) (theirIdentity : PublicKey) (dir : SealDirection)
    (ephemeralPub : PublicKey) (encryptedMessageKey : Bytes) : Except SealErr Bytes := do
  let agreement ← (ourIdentity.privateKey.calculateAgreement theirIdentity).mapError .agreement
  return agreement ++ ephemeralPub.serialize ++ encryptedMessageKey ++
    inOrder dir ourIdentity.publicKey.serialize theirIdentity.serialize

def computeAuthenticationTag (ourIdentity : KeyPair) (theirIdentity : PublicKey) (dir : SealDirection)
    (ephemeralPub : PublicKey) (encryptedMessageKey : Bytes) : Except SealErr Bytes := do
  let ikm ← authTagInput ourIdentity theirIdentity dir ephemeralPub encryptedMessageKey
  return hkdfSHA256 ikm [] v2LabelDHS v2AuthTagLen

/-! ## The SENT form -/

structure SealV2Recipient where
  serviceID : ServiceID
  identityKey : PublicKey
  deviceID : UInt32
  registrationID : UInt32
deriving DecidableEq, Repr

structure V2PerRecipient where
  serviceID : ServiceID
  deviceID : UInt32
  encryptedMessageKey : Bytes
  authTag : Bytes
deriving DecidableEq, Repr

structure SealV2SentMessage where
  serialized : Bytes
  ephemeralPublic : PublicKey
  encryptedMessage : Bytes
  perRecipient : List V2PerRecipient
deriving DecidableEq, Repr

structure V2Group where
  start : Nat
  count : Nat
deriving DecidableEq, Repr

def runLength (s : ServiceID) : List SealV2Recipient → Nat
  | [] => 0
  | r :: rest => if r.serviceID = s then runLength s rest + 1 else 0

/-- The grouping loop, on the entries from index `i` on; every round takes at least one entry. -/
def groupLoop : Nat → Nat → List SealV2Recipient → List V2Group
  | 0, _, _ => []
  | _ + 1, _, [] => []
  | fuel + 1, i, r :: rest =>
    let n := runLength r.serviceID rest
    ⟨i, n + 1⟩ :: groupLoop fuel (i + (n + 1)) (rest.drop n)

def encodeDevices (first : SealV2Recipient) (count : Nat) :
    Nat → List SealV2Recipient → Except SealErr Bytes
  | _, [] => .ok []
  | d, r :: rest =>
    if ¬ r.identityKey.equal first.identityKey then .error .differingIdentityKeys
    else if r.deviceID = 0 ∨ r.deviceID > 0xFF then .error (.deviceIdRange r.deviceID)
    else if r.registrationID &&& validRegistrationIDMask ≠ r.registrationID then
      .error (.registrationIdRange r.registrationID)
    else do
      let regID := r.registrationID.toUInt16
      let regID := if d ≠ count - 1 then regID ||| hasMoreDevicesFlag else regID
      let out ← encodeDevices first count (d + 1) rest
      return r.deviceID.toUInt8 :: (beBytes 2 regID.toNat ++ out)

def encodeGroup (recipients : List SealV2Recipient) (perRecipient : List V2PerRecipient) (g : V2Group) :
    Except SealErr Bytes := do
  let first ← orError .indexPanic recipients[g.start]?
  let devices ← encodeDevices first g.count 0 ((recipients.drop g.start).take g.count)
  let pr ← orError .indexPanic perRecipient[g.start]?
  return first.serviceID.serviceIDFixedWidthBinary ++ devices ++ pr.encryptedMessageKey ++ pr.authTag

def encodeGroups (recipients : List SealV2Recipient) (perRecipient : List V2PerRecipient) :
    List V2Group → Except SealErr Bytes
  | [] => .ok []
  | g :: gs => do
    let block ← encodeGroup recipients perRecipient g
    let rest ← encodeGroups recipients perRecipient gs
    return block ++ rest

def encodeV2SentMessage (recipients : List SealV2Recipient) (perRecipient : List V2PerRecipient)
    (ephemeralPublic : PublicKey) (ciphertext : Bytes) : Except SealErr Bytes := do
  let groups := groupLoop recipients.length 0 recipients
  let blocks ← encodeGroups recipients perRecipient groups
  return Spqr.appendVarint [sealedSenderV2ServiceIDSentVersion] groups.length.toUInt64 ++ blocks ++
    ephemeralPublic.publicKeyBytes ++ ciphertext

def sealFor (ourIdentity e : KeyPair) (m : Bytes) (r : SealV2Recipient) :
    Except SealErr V2PerRecipient := do
  let ci ← applyAgreementXor e r.identityKey .sending m
  let tag ← computeAuthenticationTag ourIdentity r.identityKey .sending e.publicKey ci
  return ⟨r.serviceID, r.deviceID, ci, tag⟩

def sealForAll (ourIdentity e : KeyPair) (m : Bytes) :
    List SealV2Recipient → Except SealErr (List V2PerRecipient)
  | [] => .ok []
  | r :: rest => do
    let pr ← sealFor ourIdentity e m r
    let prs ← sealForAll ourIdentity e m rest
    return pr :: prs

variable [Aes]

/-- Seal a content for many recipients; `none` is a nil content. -/
def sealV2 (usmc : Option USMC) (recipients : List SealV2Recipient) (ourIdentity : KeyPair)
    (rng : Reader) : Except SealErr SealV2SentMessage := do
  let usmc ← orError .nilUSMC usmc
  if recipients.length = 0 then .error .noRecipients
  else do
    let m ← orError .v2RandomSeed (rng.read v2MessageKeyLen)
    let e ← deriveE m
    let k := deriveK m
    let ciphertext ← (gcmSivSeal k (zeros gcmsivNonceLen) usmc.serialized []).mapError .v2Seal
    let perRecipient ← sealForAll ourIdentity e m recipients
    let serialized ← encodeV2SentMessage recipients perRecipient e.publicKey ciphertext
    return ⟨serialized, e.publicKey, ciphertext, perRecipient⟩

omit [Hash] [X25519] [Aes] in
def receivedMessage (s : SealV2SentMessage) (pr : V2PerRecipient) : Bytes :=
  sealedSenderV2FullVersion :: (pr.encryptedMessageKey ++ pr.authTag ++
    s.ephemeralPublic.publicKeyBytes ++ s.encryptedMessage)

omit [Hash] [X25519] [Aes] in
def SealV2SentMessage.receivedMessageForRecipient (s : SealV2SentMessage) (i : Int) :
    Except SealErr Bytes :=
  if i < 0 ∨ i ≥ s.perRecipient.length then .error (.recipientIndex i)
  else do
    let pr ← orError .indexPanic s.perRecipient[i.toNat]?
    return receivedMessage s pr

variable [Wire UsmcPB] [Wire ServerCertificatePB] [Wire ServerCertificateBodyPB]
  [Wire SenderCertificatePB] [Wire SenderCertificateBodyPB]

def decryptV2Received (body : Bytes) (ourIdentity : KeyPair) : Except SealErr USMC :=
  let prefixLen := v2MessageKeyLen + v2AuthTagLen + v2PublicKeyLen
  if body.length < prefixLen then .error .v2TooShort
  else do
    let encryptedMessageKey := body.take v2MessageKeyLen
    let authTag := (body.take (v2MessageKeyLen + v2AuthTagLen)).drop v2MessageKeyLen
    let ephemeralRaw := (body.take prefixLen).drop (v2MessageKeyLen + v2AuthTagLen)
    let encryptedMessage := body.drop prefixLen
    let ephemeralPublic ← (newPublicKey ephemeralRaw).mapError .v2EphemeralKey
    let m ← applyAgreementXor ourIdentity ephemeralPublic .receiving encryptedMessageKey
    let derivedE ← deriveE m
    if derivedE.publicKey.serialize ≠ ephemeralPublic.serialize then .error .v2EphemeralMismatch
    else do
      let k := deriveK m
      let messageBytes ← (gcmSivOpen k (zeros gcmsivNonceLen) encryptedMessage []).mapError .v2Open
      let usmc ← (deserializeUSMC messageBytes).mapError .usmc
      let tag ← computeAuthenticationTag ourIdentity usmc.sender.key .receiving ephemeralPublic
        encryptedMessageKey
      if tag ≠ authTag then .error .v2TagMismatch else .ok usmc

variable [Wire UsmPB]

def decryptToUSMC (message : Bytes) (ourIdentity : KeyPair) : Except SealErr USMC :=
  match message with
  | [] => .error .emptyMessage
  | v :: body =>
    let version := v >>> 4
    if version = 0 ∨ version = 1 then decryptV1 body ourIdentity
    else if version = 2 then decryptV2Received body ourIdentity
    else .error (.unknownVersion version)

end

/-! ## Sender and recipient compute the same mask and tag -/

section
variable [Hash] [X25519] {ours theirs e : KeyPair}

lemma deriveE_ok (hdh : X25519.Commutes) (m : Bytes) : ∃ e, deriveE m = .ok e := by
  have hlen : (hkdfSHA256 m [] v2LabelR v2PublicKeyLen).length = privateKeyLength :=
    hkdfSHA256_length _ _ _ _ (by decide)
  obtain ⟨pub, hpub⟩ := hdh.publicKey (privateKeyFromBytes _ hlen)
  refine ⟨⟨pub, privateKeyFromBytes _ hlen⟩, ?_⟩
  rw [deriveE, deserializePrivateKey, dif_pos hlen]
  change (keyPairFromPrivateKey (privateKeyFromBytes _ hlen)).mapError SealErr.v2DeriveE = _
  rw [keyPairFromPrivateKey, hpub]
  rfl

variable {c m : Bytes}

lemma deriveE_valid (h : deriveE m = .ok e) : e.Valid := by
  obtain ⟨priv, _, h⟩ := bind_eq_ok h
  exact (keyPairFromPrivateKey_inv (mapError_eq_ok h)).1

lemma applyAgreementXor_mirror (hdh : X25519.Commutes) (he : e.Valid) (htheirs : theirs.Valid)
    (hm : m.length = v2MessageKeyLen) :
    ∃ c, applyAgreementXor e theirs.publicKey .sending m = .ok c ∧ c.length = v2MessageKeyLen ∧
      applyAgreementXor theirs e.publicKey .receiving c = .ok m := by
  obtain ⟨s, hs, hs'⟩ := hdh.agreement e theirs he htheirs
  set stream := hkdfSHA256 (s ++ (e.publicKey.serialize ++ theirs.publicKey.serialize)) [] v2LabelDH
    v2MessageKeyLen
  have hstream : stream.length = v2MessageKeyLen := hkdfSHA256_length _ _ _ _ (by decide)
  have hc : (xorBytes stream m).length = v2MessageKeyLen := by
    rw [length_xorBytes, hstream, hm, Nat.min_self]
  refine ⟨xorBytes stream m, ?_, hc, ?_⟩
  · rw [applyAgreementXor, if_neg (not_not.mpr hm), hs]
    rfl
  · rw [applyAgreementXor, if_neg (not_not.mpr hc), hs']
    change Except.ok (xorBytes stream (xorBytes stream m)) = _
    rw [xorBytes_comm stream m, xorBytes_comm, xorBytes_xorBytes (by rw [hm, hstream])]

omit [Hash] in
lemma authTag_mirror (hdh : X25519.Commutes) (hours : ours.Valid) (htheirs : theirs.Valid)
    (ephemeralPub : PublicKey) (c : Bytes) :
    ∃ ikm, authTagInput ours theirs.publicKey .sending ephemeralPub c = .ok ikm ∧
      authTagInput theirs ours.publicKey .receiving ephemeralPub c = .ok ikm := by
  obtain ⟨s, hs, hs'⟩ := hdh.agreement ours theirs hours htheirs
  exact ⟨_, by rw [authTagInput, hs]; rfl, by rw [authTagInput, hs']; rfl⟩

lemma computeAuthenticationTag_inv {theirKey ephemeralPub : PublicKey} {dir : SealDirection} {tag : Bytes}
    (h : computeAuthenticationTag ours theirKey dir ephemeralPub c = .ok tag) :
    ∃ ikm, authTagInput ours theirKey dir ephemeralPub c = .ok ikm ∧
      tag = hkdfSHA256 ikm [] v2LabelDHS v2AuthTagLen := by
  obtain ⟨ikm, hikm, h⟩ := bind_eq_ok h
  cases h
  exact ⟨ikm, hikm, rfl⟩

omit [Hash] in
lemma authTagInput_key {key key' ephemeralPub : PublicKey} {ikm : Bytes}
    (h : authTagInput theirs key .receiving ephemeralPub c = .ok ikm)
    (h' : authTagInput theirs key' .receiving ephemeralPub c = .ok ikm) : key = key' := by
  obtain ⟨s, hs, h⟩ := bind_eq_ok h
  obtain ⟨s', hs', h'⟩ := bind_eq_ok h'
  have hlen : s.length = s'.length := by
    rw [length_agreement (mapError_eq_ok hs), length_agreement (mapError_eq_ok hs')]
  have heq : s ++ ephemeralPub.serialize ++ c ++ (key.serialize ++ theirs.publicKey.serialize) =
      s' ++ ephemeralPub.serialize ++ c ++ (key'.serialize ++ theirs.publicKey.serialize) :=
    (Except.ok.inj h).trans (Except.ok.inj h').symm
  have htail := (List.append_inj heq (by simp [hlen])).2
  exact PublicKey.serialize_injective (List.append_inj htail (by simp)).1

lemma sealFor_inv {r : SealV2Recipient} {pr : V2PerRecipient} (h : sealFor ours e m r = .ok pr) :
    applyAgreementXor e r.identityKey .sending m = .ok pr.encryptedMessageKey ∧
      computeAuthenticationTag ours r.identityKey .sending e.publicKey pr.encryptedMessageKey
        = .ok pr.authTag := by
  obtain ⟨c, hc, h⟩ := bind_eq_ok h
  obtain ⟨tag, htag, h⟩ := bind_eq_ok h
  cases h
  exact ⟨hc, htag⟩

lemma sealForAll_inv {recipients : List SealV2Recipient} {prs : List V2PerRecipient}
    (h : sealForAll ours e m recipients = .ok prs) :
    List.Forall₂ (fun r pr => sealFor ours e m r = .ok pr) recipients prs := by
  induction recipients generalizing prs with
  | nil => cases h; exact .nil
  | cons r rest ih =>
    obtain ⟨pr, hpr, h⟩ := bind_eq_ok h
    obtain ⟨prs', hprs, h⟩ := bind_eq_ok h
    cases h
    exact .cons hpr (ih hprs)

variable [Aes]

lemma sealV2_inv {usmc : USMC} {recipients : List SealV2Recipient} {rng : Reader}
    {out : SealV2SentMessage} (h : sealV2 (some usmc) recipients ours rng = .ok out) :
    ∃ m e, m.length = v2MessageKeyLen ∧ deriveE m = .ok e ∧ out.ephemeralPublic = e.publicKey ∧
      gcmSivSeal (deriveK m) (zeros gcmsivNonceLen) usmc.serialized [] = .ok out.encryptedMessage ∧
      sealForAll ours e m recipients = .ok out.perRecipient ∧
      encodeV2SentMessage recipients out.perRecipient e.publicKey out.encryptedMessage
        = .ok out.serialized := by
  obtain ⟨_, hu, h⟩ := bind_eq_ok h
  cases hu
  split at h
  · cases h
  · obtain ⟨m, hm, h⟩ := bind_eq_ok h
    obtain ⟨e, he, h⟩ := bind_eq_ok h
    obtain ⟨ct, hct, h⟩ := bind_eq_ok h
    obtain ⟨prs, hprs, h⟩ := bind_eq_ok h
    obtain ⟨bytes, hbytes, h⟩ := bind_eq_ok h
    cases h
    have hread : rng.read v2MessageKeyLen = some m := by
      cases hr : rng.read v2MessageKeyLen with
      | none => rw [hr] at hm; cases hm
      | some b => rw [hr] at hm; cases hm; rfl
    exact ⟨m, e, rng.read_length _ _ hread, he, rfl, mapError_eq_ok hct, hprs, hbytes⟩

variable [Wire UsmcPB] [Wire ServerCertificatePB] [Wire ServerCertificateBodyPB]
  [Wire SenderCertificatePB] [Wire SenderCertificateBodyPB]

omit [Hash] [X25519] [Aes] [Wire UsmcPB] [Wire ServerCertificatePB] [Wire ServerCertificateBodyPB]
  [Wire SenderCertificatePB] [Wire SenderCertificateBodyPB] in
lemma received_fields {tag raw : Bytes} (ct : Bytes) (hc : c.length = 32) (htag : tag.length = 16)
    (hraw : raw.length = 32) :
    (c ++ tag ++ raw ++ ct).take 32 = c ∧ ((c ++ tag ++ raw ++ ct).take 48).drop 32 = tag ∧
      ((c ++ tag ++ raw ++ ct).take 80).drop 48 = raw ∧ (c ++ tag ++ raw ++ ct).drop 80 = ct := by
  have h48 : (c ++ tag).length = 48 := by rw [List.length_append, hc, htag]
  have h80 : (c ++ tag ++ raw).length = 80 := by rw [List.length_append, h48, hraw]
  refine ⟨?_, ?_, ?_, List.drop_left' h80⟩
  · rw [List.append_assoc, List.append_assoc]
    exact List.take_left' hc
  · rw [List.append_assoc (c ++ tag), List.take_left' h48]
    exact List.drop_left' hc
  · rw [List.take_left' h80]
    exact List.drop_left' h48

lemma decryptV2_received (hdh : X25519.Commutes) (htheirs : theirs.Valid) {usmc : USMC}
    (hm : m.length = v2MessageKeyLen) (he : deriveE m = .ok e) {out : SealV2SentMessage}
    (heph : out.ephemeralPublic = e.publicKey)
    (hct : gcmSivSeal (deriveK m) (zeros gcmsivNonceLen) usmc.serialized [] = .ok out.encryptedMessage)
    {r : SealV2Recipient} {pr : V2PerRecipient} (hr : r.identityKey = theirs.publicKey)
    (hpr : sealFor ours e m r = .ok pr) :
    decryptV2Received (pr.encryptedMessageKey ++ pr.authTag ++ out.ephemeralPublic.publicKeyBytes ++
        out.encryptedMessage) theirs = ((deserializeUSMC usmc.serialized).mapError .usmc >>= fun u =>
        computeAuthenticationTag theirs u.sender.key .receiving e.publicKey pr.encryptedMessageKey
          >>= fun tag => if tag ≠ pr.authTag then .error .v2TagMismatch else .ok u) := by
  obtain ⟨hxor, htag⟩ := sealFor_inv hpr
  rw [hr] at hxor htag
  obtain ⟨c, hc, hclen, hback⟩ := applyAgreementXor_mirror hdh (deriveE_valid he) htheirs hm
  rw [hxor] at hc
  cases hc
  obtain ⟨ikm, _, htageq⟩ := computeAuthenticationTag_inv htag
  have htaglen : pr.authTag.length = 16 := by
    rw [htageq]
    exact hkdfSHA256_length _ _ _ _ (by decide)
  rw [heph]
  have hraw : e.publicKey.publicKeyBytes.length = 32 := e.publicKey.length_data
  obtain ⟨hf1, hf2, hf3, hf4⟩ := received_fields out.encryptedMessage hclen htaglen hraw
  have hlong : ¬ (pr.encryptedMessageKey ++ pr.authTag ++ e.publicKey.publicKeyBytes ++
      out.encryptedMessage).length < v2MessageKeyLen + v2AuthTagLen + v2PublicKeyLen := by
    rw [List.length_append, List.length_append, List.length_append, hclen, htaglen, hraw]
    simp [v2MessageKeyLen, v2AuthTagLen, v2PublicKeyLen]
  rw [decryptV2Received]
  dsimp only
  rw [if_neg hlong]
  simp only [v2MessageKeyLen, v2AuthTagLen, v2PublicKeyLen, hf1, hf2, hf3, hf4]
  have hpub : newPublicKey e.publicKey.publicKeyBytes = .ok e.publicKey := newPublicKey_data _
  simp only [hpub, mapError_ok, ok_bind, hback, he, ne_eq, not_true_eq_false, if_false, gcmSivOpen_seal hct]

end

end LibSignal.SealedSender
