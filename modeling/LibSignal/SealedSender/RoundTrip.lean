import LibSignal.SealedSender.V2

/-!
# Sealed sender round trip and sender binding

What a sender seals with either version, every recipient opens to the same content, provided the certificate
in the content is for the key that sealed it; any other certificate is rejected.
-/

namespace LibSignal.SealedSender
open Chunked (Bytes)
open Crypto Curve Proto Lib Address

section
variable [Hash] [X25519] [Aes] [XEdDSA] [Wire UsmPB] [Wire UsmcPB] [Wire ServerCertificatePB]
  [Wire ServerCertificateBodyPB] [Wire SenderCertificatePB] [Wire SenderCertificateBodyPB]
variable {ours theirs : KeyPair}

/-- The outcome of opening: the content if its certificate is for the sealing key, else an error. -/
def Opens (message : Bytes) (theirs : KeyPair) (u : USMC) (sealingKey : PublicKey) : Prop :=
  (u.sender.key = sealingKey → decryptToUSMC message theirs = .ok u) ∧
    (u.sender.key ≠ sealingKey → ∃ e, decryptToUSMC message theirs = .error e)

omit [XEdDSA] in
lemma opens_sealV1 (hdh : X25519.Commutes) (hours : ours.Valid) (htheirs : theirs.Valid) {u : USMC}
    (hu : deserializeUSMC u.serialized = .ok u) {rng : Reader} (hrng : (rng.read 32).isSome) :
    ∃ out, sealV1 (some u) ours theirs.publicKey rng = .ok out ∧ Opens out theirs u ours.publicKey := by
  obtain ⟨body, hseal, hopen⟩ := decryptV1_sealV1 hdh hours htheirs u hrng
  refine ⟨_, hseal, ?_⟩
  have hdec : decryptToUSMC (sealedSenderV1FullVersion :: body) theirs = decryptV1 body theirs := rfl
  rw [hu, mapError_ok, ok_bind] at hopen
  rw [Opens, hdec, hopen]
  refine ⟨fun hkey => ?_, fun hkey => ?_⟩
  · rw [hkey, if_neg (not_not.mpr rfl)]
  · rw [if_pos fun heq => hkey (PublicKey.serialize_injective heq).symm]
    exact ⟨_, rfl⟩

omit [XEdDSA] [Aes] [Wire UsmPB] [Wire UsmcPB] [Wire ServerCertificatePB]
  [Wire ServerCertificateBodyPB] [Wire SenderCertificatePB] [Wire SenderCertificateBodyPB] in
/-- Two inputs of the tag that a recipient compares do not collide: the one of the sealing key and the one
of the certificate's key. -/
def TagsApart (ours theirs : KeyPair) (key ephemeralPub : PublicKey) (c : Bytes) : Prop :=
  ∀ a b, authTagInput ours theirs.publicKey .sending ephemeralPub c = .ok a →
    authTagInput theirs key .receiving ephemeralPub c = .ok b →
    hkdfSHA256 a [] v2LabelDHS v2AuthTagLen = hkdfSHA256 b [] v2LabelDHS v2AuthTagLen → a = b

omit [XEdDSA] in
lemma opens_received (hdh : X25519.Commutes) (hours : ours.Valid) (htheirs : theirs.Valid) {u : USMC}
    (hu : deserializeUSMC u.serialized = .ok u) {recipients : List SealV2Recipient} {rng : Reader}
    {out : SealV2SentMessage} (hseal : sealV2 (some u) recipients ours rng = .ok out) {i : Nat}
    {r : SealV2Recipient} (hr : recipients[i]? = some r) (hkey : r.identityKey = theirs.publicKey)
    (hapart : ∀ pr, out.perRecipient[i]? = some pr →
      TagsApart ours theirs u.sender.key out.ephemeralPublic pr.encryptedMessageKey) :
    ∃ msg, out.receivedMessageForRecipient i = .ok msg ∧ Opens msg theirs u ours.publicKey := by
  obtain ⟨m, e, hm, he, heph, hct, hall, _⟩ := sealV2_inv hseal
  have hforall := sealForAll_inv hall
  have hlt : i < recipients.length := (List.getElem?_eq_some_iff.mp hr).1
  have hlt' : i < out.perRecipient.length := by rw [← hforall.length_eq]; exact hlt
  obtain ⟨pr, hpr⟩ : ∃ pr, out.perRecipient[i]? = some pr :=
    ⟨_, List.getElem?_eq_getElem hlt'⟩
  have hsealed : sealFor ours e m r = .ok pr := by
    have hget := hforall.get hlt hlt'
    rw [List.get_eq_getElem, List.get_eq_getElem] at hget
    rw [(List.getElem?_eq_some_iff.mp hr).2, (List.getElem?_eq_some_iff.mp hpr).2] at hget
    exact hget
  refine ⟨receivedMessage out pr, ?_, ?_⟩
  · rw [SealV2SentMessage.receivedMessageForRecipient, if_neg (by omega), Int.toNat_natCast, hpr]
    rfl
  · have hdec : decryptToUSMC (receivedMessage out pr) theirs =
        decryptV2Received (pr.encryptedMessageKey ++ pr.authTag ++
          out.ephemeralPublic.publicKeyBytes ++ out.encryptedMessage) theirs := rfl
    have hopen := decryptV2_received hdh htheirs hm he heph hct hkey hsealed
    rw [hu, mapError_ok, ok_bind] at hopen
    rw [Opens, hdec, hopen]
    -- the tag of the sealing key, as both sides compute it
    obtain ⟨ikm, hikm, hikm'⟩ := authTag_mirror hdh hours htheirs e.publicKey pr.encryptedMessageKey
    obtain ⟨_, htag⟩ := sealFor_inv hsealed
    rw [hkey] at htag
    obtain ⟨ikm0, hikm0, htageq⟩ := computeAuthenticationTag_inv htag
    rw [hikm] at hikm0
    cases hikm0
    refine ⟨fun hcert => ?_, fun hcert => ?_⟩
    · rw [hcert, computeAuthenticationTag, hikm', ok_bind, pure_eq_ok, ok_bind, htageq,
        if_neg (not_not.mpr rfl)]
    · cases htag' : computeAuthenticationTag theirs u.sender.key .receiving e.publicKey
          pr.encryptedMessageKey with
      | error err => exact ⟨err, rfl⟩
      | ok tag =>
        obtain ⟨ikm', hin, htag''⟩ := computeAuthenticationTag_inv htag'
        have hne : tag ≠ pr.authTag := by
          intro heq
          have hcoll := hapart pr hpr ikm ikm' (heph ▸ hikm) (heph ▸ hin)
            (by rw [← htageq, ← htag'', heq])
          rw [← hcoll] at hin
          exact hcert (authTagInput_key hin hikm')
        exact ⟨.v2TagMismatch, by rw [ok_bind, if_pos hne]⟩

/-- Sealed sender round trip and sender binding. -/
theorem sealed_sender_round_trip (hdh : X25519.Commutes) {msgType : UInt8} {sender : SenderCertificate}
    {contents groupID : Bytes} {hint : UInt32} {u : USMC} (hsender : sender.Made)
    (husmc : newUSMC msgType (some sender) (some contents) hint groupID = .ok u)
    {ours : KeyPair} (hours : ours.Valid) :
    (∀ (theirs : KeyPair) (rng : Reader), theirs.Valid → (rng.read 32).isSome →
      ∃ out, sealV1 (some u) ours theirs.publicKey rng = .ok out ∧ Opens out theirs u ours.publicKey) ∧
    (∀ (recipients : List SealV2Recipient) (rng : Reader) (out : SealV2SentMessage),
      sealV2 (some u) recipients ours rng = .ok out →
      ∀ (i : Nat) (r : SealV2Recipient) (theirs : KeyPair), recipients[i]? = some r →
        theirs.Valid → r.identityKey = theirs.publicKey → (∀ pr, out.perRecipient[i]? = some pr →
          TagsApart ours theirs sender.key out.ephemeralPublic pr.encryptedMessageKey) →
        ∃ msg, out.receivedMessageForRecipient i = .ok msg ∧ Opens msg theirs u ours.publicKey) := by
  have hu := newUSMC_reload hsender husmc
  have hkey := newUSMC_sender husmc
  refine ⟨fun theirs rng htheirs hrng => opens_sealV1 hdh hours htheirs hu hrng, ?_⟩
  intro recipients rng out hseal i r theirs hr htheirs hid hapart
  exact opens_received hdh hours htheirs hu hseal hr hid (by rw [hkey]; exact hapart)

end

deriving instance Countable for UsmPB
deriving instance Countable for UsmcPB
deriving instance Countable for ServerCertificatePB
deriving instance Countable for ServerCertificateBodyPB
deriving instance Countable for SenderCertificatePB
deriving instance Countable for SenderUuidPB
deriving instance Countable for SignerPB
deriving instance Countable for SenderCertificateBodyPB

def oneKeyPair : KeyPair :=
  ⟨⟨.djb, 1 :: zeros 31, length_one_zeros⟩, privateKeyFromBytes (zeros 32) length_zeros_32⟩

def zeroSource : Reader := ⟨fun n => some (zeros n), length_some_zeros⟩

/-- A certificate for `oneKeyPair`, a content with it, and its round trip. -/
theorem sealed_sender_round_trip_self : ∃ (sender : SenderCertificate) (u : USMC) (out : Bytes),
      @newUSMC (unaryWire _) messageTypeWhisper (some sender) (some [1]) 0 [] = .ok u ∧
      @sealV1 zeroHash oneX25519 plainAes (unaryWire _) (some u) oneKeyPair oneKeyPair.publicKey
        zeroSource = .ok out ∧
      @decryptToUSMC zeroHash oneX25519 plainAes (unaryWire _) (unaryWire _) (unaryWire _) (unaryWire _)
        (unaryWire _) (unaryWire _) out oneKeyPair = .ok u := by
  let _ := zeroHash
  let _ := oneX25519
  let _ := plainAes
  let _ := zeroXEdDSA
  let _ := unaryWire UsmPB
  let _ := unaryWire UsmcPB
  let _ := unaryWire ServerCertificatePB
  let _ := unaryWire ServerCertificateBodyPB
  let _ := unaryWire SenderCertificatePB
  let _ := unaryWire SenderCertificateBodyPB
  obtain ⟨server, hserver⟩ :
      ∃ c, newServerCertificate 1 oneKeyPair.publicKey oneKeyPair.privateKey zeroSource = .ok c :=
    ⟨_, rfl⟩
  obtain ⟨sender, hsender, hkey⟩ :
      ∃ c, newSenderCertificate "alice" none oneKeyPair.publicKey 1 ⟨0⟩ (some server)
        oneKeyPair.privateKey zeroSource = .ok c ∧ c.key = oneKeyPair.publicKey := ⟨_, rfl, rfl⟩
  obtain ⟨u, hu⟩ : ∃ u, newUSMC messageTypeWhisper (some sender) (some [1]) 0 [] = .ok u := ⟨_, rfl⟩
  have hround := sealed_sender_round_trip oneX25519_commutes (.issued (.issued hserver) hsender) hu
    (show oneKeyPair.Valid from rfl)
  obtain ⟨out, hout, hopen⟩ := hround.1 oneKeyPair zeroSource rfl rfl
  exact ⟨sender, u, out, hu, hout, hopen.1 (by rw [newUSMC_sender hu, hkey])⟩

end LibSignal.SealedSender
