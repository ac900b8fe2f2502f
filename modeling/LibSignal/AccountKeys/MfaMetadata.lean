import LibSignal.AccountKeys.WireFilter
import LibSignal.Crypto.Aes
import LibSignal.Lib.ProtoMessage
import LibSignal.Lib.Runes

/-!
# MFA metadata

Model of `accountkeys/mfa_metadata.go`: the name and the creation time of an MFA key, written as a protobuf
message, padded to a fixed size, encrypted and authenticated.
-/

namespace LibSignal.AccountKeys
open Chunked (Bytes)
open Crypto Lib Lib.ProtoWire

inductive MfaErr where
  | invalidKeyName
  | requiresRandomSource
  | randomness
  | invalidMFAMetadata
deriving DecidableEq, Repr

def mfaMetadataCiphertextLen : Nat := 160
def mfaKeyNameMaxLen : Nat := 98
def mfaPaddedPlaintextLen : Nat := 112
def mfaAuthenticatedLen : Nat := blockSize + mfaPaddedPlaintextLen

structure MFAMetadata where
  name : Bytes
  createdAtEpochMillis : UInt64
deriving DecidableEq

abbrev EncryptedMFAMetadata := { b : Bytes // b.length = mfaMetadataCiphertextLen }

abbrev SVRKey := { b : Bytes // b.length = 32 }

def newMFAMetadata (name : Bytes) (createdAtEpochMillis : UInt64) : Except MfaErr MFAMetadata :=
  if ¬ validString name ∨ 0 ∈ name ∨ name.length > mfaKeyNameMaxLen then .error .invalidKeyName
  else .ok ⟨name, createdAtEpochMillis⟩

structure MfaKeyMetadataPlaintext where
  creationEpochTimeSeconds : UInt64
  keyName : Bytes
deriving DecidableEq

def secondsField (seconds : UInt64) : Bytes :=
  if seconds ≠ 0 then encodeVarintField 1 seconds.toNat else []

def nameField (name : Bytes) : Bytes := if name.length > 0 then encodeBytesField 2 name else []

def MfaKeyMetadataPlaintext.marshal (p : MfaKeyMetadataPlaintext) : Option Bytes :=
  if validString p.keyName then some (secondsField p.creationEpochTimeSeconds ++ nameField p.keyName) else none

def unmarshalField (num : Nat) (typ : WireType) (b : Bytes) (p : MfaKeyMetadataPlaintext) :
    FieldRead MfaKeyMetadataPlaintext :=
  match num with
  | 1 => readVarint typ b fun v => { p with creationEpochTimeSeconds := v.toUInt64 }
  | 2 => readBytes typ b fun v => if validString v then some { p with keyName := v } else none
  | _ => .unknown

def unmarshal (b : Bytes) : Option MfaKeyMetadataPlaintext := unmarshalInto unmarshalField b ⟨0, []⟩

def padPlaintext (plaintext : Bytes) : Bytes :=
  plaintext ++ List.replicate (mfaPaddedPlaintextLen - plaintext.length)
    (mfaPaddedPlaintextLen - plaintext.length).toUInt8

def unpadPlaintext (padded : Bytes) : Option Bytes :=
  let padding := (padded.getD (padded.length - 1) 0).toNat
  if padding = 0 ∨ padding > padded.length then none
  else if (padded.drop (padded.length - padding)).all (· == padding.toUInt8) then
    some (padded.take (padded.length - padding))
  else none

lemma newMFAMetadata_ok {name : Bytes} {millis : UInt64} {m : MFAMetadata} :
    newMFAMetadata name millis = .ok m ↔
      (validString name = true ∧ 0 ∉ name ∧ name.length ≤ mfaKeyNameMaxLen) ∧ m = ⟨name, millis⟩ := by
  rw [newMFAMetadata]
  split
  · rename_i hbad
    constructor
    · intro h
      cases h
    · rintro ⟨⟨hvalid, hnul, hlen⟩, _⟩
      rcases hbad with hbad | hbad | hbad
      · exact absurd hvalid hbad
      · exact absurd hbad hnul
      · exact absurd hlen (Nat.not_le.mpr hbad)
  · rename_i hgood
    rw [not_or, not_or, not_not] at hgood
    obtain ⟨hvalid, hnul, hlen⟩ := hgood
    constructor
    · intro h
      cases h
      exact ⟨⟨hvalid, hnul, Nat.not_lt.mp hlen⟩, rfl⟩
    · rintro ⟨_, rfl⟩
      rfl

variable {b : Bytes} {p : MfaKeyMetadataPlaintext}

lemma length_marshal (hname : p.keyName.length ≤ mfaKeyNameMaxLen) (h : p.marshal = some b) :
    b.length < mfaPaddedPlaintextLen := by
  rw [MfaKeyMetadataPlaintext.marshal] at h
  rw [mfaKeyNameMaxLen] at hname
  split at h
  · cases h
    have hseconds : (secondsField p.creationEpochTimeSeconds).length ≤ 11 := by
      rw [secondsField]
      split
      · have hvarint : (encodeVarint p.creationEpochTimeSeconds.toNat).length ≤ 10 :=
          length_encodeVarint (m := 9) ((UInt64.toNat_lt _).trans (by norm_num)) (by decide)
        rw [encodeVarintField, List.length_append, show (encodeTag 1 .varint).length = 1 from rfl]
        omega
      · exact Nat.zero_le _
    have hnameField : (nameField p.keyName).length ≤ 2 + p.keyName.length := by
      rw [nameField]
      split
      · have hshort : (encodeVarint p.keyName.length).length ≤ 1 :=
          length_encodeVarint (m := 0) (by omega) (by decide)
        rw [encodeBytesField, List.length_append, encodeBytes, List.length_append,
          show (encodeTag 2 .bytes).length = 1 from rfl]
        omega
      · exact Nat.zero_le _
    rw [List.length_append, mfaPaddedPlaintextLen]
    omega
  · cases h

lemma unmarshalLoop_nameField {name : Bytes} (hvalid : validString name = true)
    (hlen : name.length ≤ mfaKeyNameMaxLen) {fuel : Nat} (hfuel : (nameField name).length ≤ fuel)
    (seconds : UInt64) :
    unmarshalLoop unmarshalField fuel (nameField name) ⟨seconds, []⟩ = some ⟨seconds, name⟩ := by
  rw [nameField] at hfuel ⊢
  split at hfuel
  · rename_i hname
    rw [if_pos hname]
    rw [mfaKeyNameMaxLen] at hlen
    rw [← List.append_nil (encodeBytesField 2 name)] at hfuel ⊢
    obtain ⟨fuel', _, hloop⟩ := unmarshalLoop_bytes unmarshalField (by decide) (by decide) (by omega)
      ⟨seconds, []⟩ (fun _ _ => rfl) (if_pos hvalid) hfuel
    rw [hloop, unmarshalLoop_nil]
  · rename_i hname
    rw [if_neg hname, unmarshalLoop_nil, List.eq_nil_of_length_eq_zero (Nat.eq_zero_of_not_pos hname)]

lemma unmarshal_marshal (hname : p.keyName.length ≤ mfaKeyNameMaxLen) (h : p.marshal = some b) :
    unmarshal b = some p := by
  rw [MfaKeyMetadataPlaintext.marshal] at h
  obtain ⟨seconds, name⟩ := p
  split at h
  · rename_i hvalid
    cases h
    rw [unmarshal, unmarshalInto, secondsField]
    dsimp only at *
    split
    · obtain ⟨fuel, hfuel, hloop⟩ := unmarshalLoop_varint unmarshalField (by decide) (by decide)
        seconds.toNat_lt ⟨0, []⟩ (fun _ _ => rfl)
        (le_refl (encodeVarintField 1 seconds.toNat ++ nameField name).length)
      rw [hloop, Nat.toUInt64_eq, UInt64.ofNat_toNat]
      exact unmarshalLoop_nameField hvalid hname hfuel seconds
    · rename_i hzero
      rw [List.nil_append, not_not.mp hzero]
      exact unmarshalLoop_nameField hvalid hname le_rfl 0
  · cases h

section
variable [Hash] [Aes]

omit [Aes] in
def keyedHash (key input : Bytes) : Bytes := hmacSHA256 key input

omit [Aes] in
def SVRKey.mfaMetadataKeys (k : SVRKey) : Bytes × Bytes :=
  (keyedHash k.1 (ascii "20260831 TOTP Metadata Encryption"),
    keyedHash k.1 (ascii "20260831 TOTP Metadata Authentication"))

def newCipher (key : Bytes) : Except MfaErr Bytes :=
  if key.length = 16 ∨ key.length = 24 ∨ key.length = 32 then .ok key else .error .invalidMFAMetadata

def authenticated (cipherKey iv padded : Bytes) : Bytes :=
  iv ++ cbcEncrypt cipherKey (mfaPaddedPlaintextLen / blockSize) iv padded

variable {iv : Bytes} {m : MFAMetadata}

omit [Hash] in
lemma length_authenticated (cipherKey padded : Bytes) (hiv : iv.length = blockSize) :
    (authenticated cipherKey iv padded).length = mfaAuthenticatedLen := by
  rw [authenticated, List.length_append, hiv, length_cbcEncrypt]
  rfl

lemma length_authenticated_mac (cipherKey authKey padded : Bytes) (hiv : iv.length = blockSize) :
    (authenticated cipherKey iv padded ++ keyedHash authKey (authenticated cipherKey iv padded)).length =
      mfaMetadataCiphertextLen := by
  rw [List.length_append, length_authenticated cipherKey padded hiv, keyedHash, hmacSHA256_length]
  rfl

def MFAMetadata.encrypt (m : MFAMetadata) (key : SVRKey) (rng : Option Reader) :
    Except MfaErr EncryptedMFAMetadata := do
  let _ ← newMFAMetadata m.name m.createdAtEpochMillis
  match rng with
  | none => .error .requiresRandomSource
  | some rng =>
    match (MfaKeyMetadataPlaintext.mk (m.createdAtEpochMillis / 1000) m.name).marshal with
    | none => .error .invalidMFAMetadata
    | some plaintext =>
      if plaintext.length ≥ mfaPaddedPlaintextLen then .error .invalidMFAMetadata
      else
        match hread : rng.read blockSize with
        | none => .error .randomness
        | some iv => do
          let cipherKey ← newCipher (SVRKey.mfaMetadataKeys key).1
          let out := authenticated cipherKey iv (padPlaintext plaintext)
          return ⟨out ++ keyedHash (SVRKey.mfaMetadataKeys key).2 out,
            length_authenticated_mac _ _ _ (rng.read_length _ _ hread)⟩

def EncryptedMFAMetadata.decrypt (m : EncryptedMFAMetadata) (key : SVRKey) : Except MfaErr MFAMetadata := do
  let (cipherKey, authKey) := SVRKey.mfaMetadataKeys key
  if keyedHash authKey (m.1.take mfaAuthenticatedLen) ≠ m.1.drop mfaAuthenticatedLen then
    .error .invalidMFAMetadata
  else
    let cipherKey ← newCipher cipherKey
    let padded := cbcDecrypt cipherKey (mfaPaddedPlaintextLen / blockSize) (m.1.take blockSize)
      ((m.1.take mfaAuthenticatedLen).drop blockSize)
    match unpadPlaintext padded with
    | none => .error .invalidMFAMetadata
    | some plaintext =>
      match mfaProtoPlaintext plaintext with
      | some (encoded, true) =>
        match unmarshal encoded with
        | none => .error .invalidMFAMetadata
        | some p =>
          if p.creationEpochTimeSeconds > 18446744073709551615 / 1000 then .error .invalidMFAMetadata
          else (newMFAMetadata p.keyName (p.creationEpochTimeSeconds * 1000)).mapError fun _ => .invalidMFAMetadata
      | _ => .error .invalidMFAMetadata

/-! ## The codec -/

omit [Aes] in
lemma newCipher_mfaMetadataKeys (key : SVRKey) :
    newCipher (SVRKey.mfaMetadataKeys key).1 = .ok (SVRKey.mfaMetadataKeys key).1 :=
  if_pos (.inr (.inr (hmacSHA256_length _ _)))

lemma MFAMetadata.encrypt_ok {name : Bytes} {millis : UInt64} (h : newMFAMetadata name millis = .ok m)
    (key : SVRKey) {rng : Reader} (hread : rng.read blockSize = some iv) :
    ∃ plaintext ctext, (MfaKeyMetadataPlaintext.mk (millis / 1000) name).marshal = some plaintext ∧
      m.encrypt key (some rng) = .ok ctext ∧
      ctext.1 = authenticated (SVRKey.mfaMetadataKeys key).1 iv (padPlaintext plaintext) ++
        keyedHash (SVRKey.mfaMetadataKeys key).2
          (authenticated (SVRKey.mfaMetadataKeys key).1 iv (padPlaintext plaintext)) := by
  obtain ⟨⟨hvalid, _, hlen⟩, rfl⟩ := newMFAMetadata_ok.mp h
  have hmarshal : (MfaKeyMetadataPlaintext.mk (millis / 1000) name).marshal =
      some (secondsField (millis / 1000) ++ nameField name) := if_pos hvalid
  have hshort := length_marshal hlen hmarshal
  refine ⟨_, ⟨_, length_authenticated_mac (SVRKey.mfaMetadataKeys key).1 (SVRKey.mfaMetadataKeys key).2
    (padPlaintext _) (rng.read_length _ _ hread)⟩, hmarshal, ?_, rfl⟩
  rw [MFAMetadata.encrypt, h, ok_bind]
  dsimp only
  rw [hmarshal]
  dsimp only
  rw [if_neg (Nat.not_le.mpr hshort)]
  split
  · rename_i hfail
    rw [hread] at hfail
    cases hfail
  · rename_i iv' hread'
    cases hread.symm.trans hread'
    rw [newCipher_mfaMetadataKeys, ok_bind]
    rfl

end

end LibSignal.AccountKeys
