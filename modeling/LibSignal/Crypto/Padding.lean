import LibSignal.Crypto.Aes
import Mathlib.Data.Set.Finite.List

/-!
# Padding and CBC in both directions

`pkcs7Unpad` accepts exactly the padded texts (`pkcs7Unpad_eq_some`).
-/

namespace LibSignal.Crypto
open Chunked (Bytes)
open Lib

variable {data : Bytes}

lemma padGood_getD {pad i : Nat} (hgood : padGood data pad = true) (hlen : 16 ≤ data.length) (hpad : pad ≤ 16)
    (hi : i < pad) : data.getD (data.length - pad + i) 0 = pad.toUInt8 := by
  rw [padGood, List.all_eq_true] at hgood
  have hscan := hgood (16 - pad + i) (List.mem_range.mpr (by rw [blockSize]; omega))
  rw [if_pos (by rw [blockSize]; omega), beq_iff_eq] at hscan
  have hindex : data.length - blockSize + (16 - pad + i) = data.length - pad + i := by
    rw [blockSize]
    omega
  rw [hindex] at hscan
  exact hscan

lemma drop_of_padGood {pad : Nat} (hgood : padGood data pad = true) (hlen : 16 ≤ data.length) (hpad : pad ≤ 16) :
    data.drop (data.length - pad) = List.replicate pad pad.toUInt8 := by
  apply List.ext_getElem
  · rw [List.length_drop, List.length_replicate]
    omega
  · intro i hi hi'
    rw [List.length_replicate] at hi'
    have hbyte := padGood_getD hgood hlen hpad hi'
    rw [List.getD_eq_getElem _ _ (by omega)] at hbyte
    rw [List.getElem_drop, List.getElem_replicate, hbyte]

lemma pkcs7Unpad_eq_some {p : Bytes} : pkcs7Unpad data = some p ↔ data = pkcs7Pad p := by
  constructor
  · intro h
    rw [pkcs7Unpad] at h
    split at h
    · cases h
    · rename_i hlen
      dsimp only at h
      generalize hpad : (data.getD (data.length - 1) 0).toNat = pad at h
      split at h
      · cases h
      · rename_i hrange
        split at h
        · rename_i hgood
          cases h
          rw [blockSize] at hlen hrange
          have hdrop := drop_of_padGood hgood (by omega) (by omega)
          -- the length of the text determines the padding
          have htake : (data.take (data.length - pad)).length = data.length - pad :=
            List.length_take_of_le (Nat.sub_le _ _)
          have hsame : blockSize - (data.take (data.length - pad)).length % blockSize = pad := by
            rw [htake, blockSize]
            omega
          rw [pkcs7Pad, hsame, ← hdrop, List.take_append_drop]
        · cases h
  · rintro rfl
    exact pkcs7Unpad_pkcs7Pad p

/-! ## Blocks -/

instance finiteUInt8 : Finite UInt8 := Finite.of_injective UInt8.toFin (fun _ _ => UInt8.toFin_inj.mp)

abbrev Block := { b : Bytes // b.length = 16 }

instance : Finite Block := (List.finite_length_eq UInt8 16).to_subtype

section
variable [Aes]

variable {key : Bytes}

lemma Aes.Inverse.surjective (haes : Aes.Inverse) (hkey : key.length = 32) :
    Function.Surjective fun b : Block => (⟨encryptBlock key b.1, encryptBlock_length _ _⟩ : Block) := by
  apply Finite.surjective_of_injective
  intro a b h
  have hsame : encryptBlock key a.1 = encryptBlock key b.1 := congrArg Subtype.val h
  apply Subtype.ext
  rw [← haes key a.1 hkey a.2, hsame, haes key b.1 hkey b.2]

lemma Aes.Inverse.encrypt_decrypt (haes : Aes.Inverse) {block : Bytes} (hkey : key.length = 32)
    (hblock : block.length = 16) :
    (decryptBlock key block).length = 16 ∧ encryptBlock key (decryptBlock key block) = block := by
  obtain ⟨b, hb⟩ := haes.surjective hkey ⟨block, hblock⟩
  have hb : encryptBlock key b.1 = block := congrArg Subtype.val hb
  rw [← hb, haes key b.1 hkey b.2]
  exact ⟨b.2, rfl⟩

lemma cbcEncrypt_cbcDecrypt (haes : Aes.Inverse) (hkey : key.length = 32) (n : Nat) {prev data : Bytes}
    (hprev : prev.length = 16) (hdata : data.length = 16 * n) : (cbcDecrypt key n prev data).length = 16 * n ∧
      cbcEncrypt key n prev (cbcDecrypt key n prev data) = data := by
  induction n generalizing prev data with
  | zero => exact ⟨rfl, (List.length_eq_zero_iff.mp hdata).symm⟩
  | succ n ih =>
    have htake : (data.take 16).length = 16 := by
      rw [List.length_take]
      omega
    have hrest : (data.drop 16).length = 16 * n := by
      rw [List.length_drop]
      omega
    obtain ⟨hlen, hblock⟩ := haes.encrypt_decrypt hkey htake
    obtain ⟨hrestlen, hback⟩ := ih htake hrest
    have hmask : (xorBytes (decryptBlock key (data.take 16)) prev).length = 16 := by
      rw [length_xorBytes, hlen, hprev, Nat.min_self]
    refine ⟨?_, ?_⟩
    · rw [cbcDecrypt, List.length_append, hmask, hrestlen]
      ring
    · rw [cbcDecrypt, cbcEncrypt, List.take_left' hmask, List.drop_left' hmask,
        xorBytes_xorBytes (by rw [hlen, hprev]), hblock, hback, List.take_append_drop]

lemma encryptCBC_decryptCBC (haes : Aes.Inverse) {plaintext iv ctext : Bytes}
    (h : decryptCBC ctext key iv = .ok plaintext) : encryptCBC plaintext key iv = .ok ctext := by
  obtain ⟨k, hk, h⟩ := bind_eq_ok h
  have hk' := hk
  rw [newAES256] at hk'
  split at hk'
  · cases hk'
  · cases hk'
    rename_i hkey
    split at h
    · cases h
    · rename_i hiv
      split at h
      · cases h
      · rename_i hlen
        split at h
        · rename_i out hout
          cases h
          have hblocks : ctext.length = 16 * (ctext.length / blockSize) := by
            rw [blockSize] at hlen ⊢
            omega
          obtain ⟨hdec, hback⟩ := cbcEncrypt_cbcDecrypt haes (not_not.mp hkey) _ (not_not.mp hiv) hblocks
          have hpadded := pkcs7Unpad_eq_some.mp hout
          rw [encryptCBC, hk, ok_bind, if_neg hiv, ← hpadded]
          dsimp only
          rw [hdec, ← hblocks, hback]
        · cases h

/-- PKCS#7 padding and its removal are inverse to each other between the texts and the accepted strings,
and so are `EncryptCBC` and `DecryptCBC` between the plaintexts and the accepted ciphertexts. -/
theorem padding_bijective (haes : Aes.Inverse) : (∀ p, pkcs7Unpad (pkcs7Pad p) = some p) ∧
    (∀ d p, pkcs7Unpad d = some p ↔ d = pkcs7Pad p) ∧ (∀ key iv p, key.length = 32 → iv.length = blockSize →
      ∃ ctext, encryptCBC p key iv = .ok ctext ∧ decryptCBC ctext key iv = .ok p) ∧
    ∀ key iv ctext p, decryptCBC ctext key iv = .ok p → encryptCBC p key iv = .ok ctext := by
  refine ⟨pkcs7Unpad_pkcs7Pad, fun _ _ => pkcs7Unpad_eq_some, ?_, ?_⟩
  · intro key iv p hkey hiv
    obtain ⟨ctext, henc⟩ := encryptCBC_ok p hkey hiv
    exact ⟨ctext, henc, decryptCBC_encryptCBC haes henc⟩
  · intro key iv ctext p hdec
    exact encryptCBC_decryptCBC haes hdec

end

/-- The block cipher that changes nothing. -/
theorem padding_bijective_plain : (∀ p, pkcs7Unpad (pkcs7Pad p) = some p) ∧
    (∀ d p, pkcs7Unpad d = some p ↔ d = pkcs7Pad p) ∧ (∀ key iv p, key.length = 32 → iv.length = blockSize →
      ∃ ctext, @encryptCBC plainAes p key iv = .ok ctext ∧ @decryptCBC plainAes ctext key iv = .ok p) ∧
    ∀ key iv ctext p, @decryptCBC plainAes ctext key iv = .ok p → @encryptCBC plainAes p key iv = .ok ctext :=
  @padding_bijective plainAes plainAes_inverse

end LibSignal.Crypto
