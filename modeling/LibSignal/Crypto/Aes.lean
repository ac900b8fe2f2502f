import LibSignal.Crypto.Primitives
import LibSignal.Lib.ByteString
import LibSignal.Lib.ExceptBind

/-!
# AES-256 in CTR and CBC mode

Model of `internal/crypto/aesctr.go` and `internal/crypto/aescbc.go` over the block cipher of the standard
library, which enters as the class `Aes`.
-/

namespace LibSignal.Crypto
open Chunked (Bytes)
open Lib

class Aes where
  encryptBlock : (key block : Bytes) → Bytes
  encryptBlock_length : ∀ key block, (encryptBlock key block).length = 16
  decryptBlock : (key block : Bytes) → Bytes

export Aes (encryptBlock encryptBlock_length decryptBlock)

/-- Decryption of a block inverts its encryption. -/
def Aes.Inverse [Aes] : Prop :=
  ∀ key block, key.length = 32 → block.length = 16 → decryptBlock key (encryptBlock key block) = block

@[reducible] def plainAes : Aes where
  encryptBlock _ block := (block ++ zeros 16).take 16
  encryptBlock_length _ block := by
    rw [List.length_take, List.length_append, length_zeros]
    omega
  decryptBlock _ block := block

lemma plainAes_inverse : @Aes.Inverse plainAes := by
  intro key block _ hblock
  exact List.take_left' hblock

inductive CryptoErr where
  | invalidKeySize (got : Nat)
  | invalidCtrNonce (got : Nat)
  | invalidCbcIV (got : Nat)
  | badCiphertextLength
  | badPadding
deriving DecidableEq, Repr

def blockSize : Nat := 16

def newAES256 (key : Bytes) : Except CryptoErr Bytes :=
  if key.length ≠ 32 then .error (.invalidKeySize key.length) else .ok key

/-! ## Counter mode -/

def nonceSizeCTR : Nat := blockSize - 4

structure Aes256Ctr32 where
  key : Bytes
  nonce : Bytes
  counter : UInt32
  keystream : Bytes
  ksUsed : Nat
  ksHasBlock : Bool
deriving DecidableEq, Repr

def newAES256CTR32 (key nonce : Bytes) (initCtr : UInt32) : Except CryptoErr Aes256Ctr32 := do
  let key ← newAES256 key
  if nonce.length ≠ nonceSizeCTR then .error (.invalidCtrNonce nonce.length)
  else .ok ⟨key, nonce, initCtr, zeros 16, 0, false⟩

namespace Aes256Ctr32
variable [Aes]

def fillKeystream (c : Aes256Ctr32) : Aes256Ctr32 :=
  { c with
    keystream := encryptBlock c.key (c.nonce ++ beBytes 4 c.counter.toNat)
    counter := c.counter + 1
    ksUsed := 0
    ksHasBlock := true }

def ready (c : Aes256Ctr32) : Aes256Ctr32 :=
  if ¬ c.ksHasBlock ∨ c.ksUsed = blockSize then c.fillKeystream else c

def roundLen (c : Aes256Ctr32) (len : Nat) : Nat :=
  if len < blockSize - c.ksUsed then len else blockSize - c.ksUsed

/-- The loop of `Process`; every round handles at least one byte, so the length bounds the rounds. -/
def processLoop : Nat → Aes256Ctr32 → Bytes → Bytes × Aes256Ctr32
  | 0, c, _ => ([], c)
  | fuel + 1, c, buf =>
    if buf.length > 0 then
      let c := c.ready
      let n := c.roundLen buf.length
      let out := xorBytes (buf.take n) (c.keystream.drop c.ksUsed)
      let (rest, c') := processLoop fuel { c with ksUsed := c.ksUsed + n } (buf.drop n)
      (out ++ rest, c')
    else ([], c)

def process (c : Aes256Ctr32) (buf : Bytes) : Bytes × Aes256Ctr32 := processLoop buf.length c buf

/-- The key stream block is whole and not overrun. -/
def Sound (c : Aes256Ctr32) : Prop := c.ksUsed ≤ 16 ∧ (c.ksHasBlock → c.keystream.length = 16)

variable {c : Aes256Ctr32}

lemma ready_spec (h : c.Sound) : c.ready.ksUsed < 16 ∧ c.ready.keystream.length = 16 := by
  rw [ready]
  split
  · exact ⟨Nat.zero_lt_succ 15, encryptBlock_length _ _⟩
  · rename_i hnot
    have hblock : c.ksHasBlock = true := by
      by_contra hfalse
      exact hnot (.inl hfalse)
    exact ⟨lt_of_le_of_ne h.1 fun heq => hnot (.inr heq), h.2 hblock⟩

omit [Aes] in
lemma roundLen_le (len : Nat) : c.roundLen len ≤ len ∧ c.roundLen len ≤ 16 - c.ksUsed := by
  rw [roundLen, blockSize]
  split
  · omega
  · omega

omit [Aes] in
lemma roundLen_pos {len : Nat} (hlen : 0 < len) (hused : c.ksUsed < 16) : 0 < c.roundLen len := by
  rw [roundLen, blockSize]
  split
  · exact hlen
  · exact Nat.sub_pos_of_lt hused

lemma Sound.round (h : c.Sound) (len : Nat) :
    Sound { c.ready with ksUsed := c.ready.ksUsed + c.ready.roundLen len } := by
  obtain ⟨hused, hlen⟩ := ready_spec h
  have hround := (c.ready.roundLen_le len).2
  exact ⟨by dsimp only; omega, fun _ => hlen⟩

lemma processLoop_processLoop (fuel : Nat) {buf : Bytes} (h : c.Sound) (hfuel : buf.length ≤ fuel) :
    (processLoop fuel c buf).1.length = buf.length ∧
      (processLoop fuel c (processLoop fuel c buf).1).1 = buf := by
  induction fuel generalizing c buf with
  | zero =>
    have hnil : buf = [] := List.length_eq_zero_iff.mp (Nat.le_zero.mp hfuel)
    rw [hnil]
    exact ⟨rfl, rfl⟩
  | succ fuel ih =>
    by_cases hpos : buf.length > 0
    · obtain ⟨hused, hks⟩ := ready_spec h
      set d := c.ready with hd
      set n := d.roundLen buf.length with hn
      set e : Aes256Ctr32 := { d with ksUsed := d.ksUsed + n } with he
      set out := xorBytes (buf.take n) (d.keystream.drop d.ksUsed) with hout
      have hle := d.roundLen_le buf.length
      have hnpos : 0 < n := roundLen_pos hpos hused
      have hmask : (buf.take n).length ≤ (d.keystream.drop d.ksUsed).length := by
        rw [List.length_take, List.length_drop, hks]
        omega
      have houtlen : out.length = n := by
        rw [hout, length_xorBytes, Nat.min_eq_left hmask, List.length_take]
        omega
      have hrest : (buf.drop n).length ≤ fuel := by
        rw [List.length_drop]
        omega
      obtain ⟨hlen, hback⟩ := ih (c := e) (h.round buf.length) hrest
      have hstep : (processLoop (fuel + 1) c buf).1 = out ++ (processLoop fuel e (buf.drop n)).1 := by
        rw [processLoop, if_pos hpos]
      have hwhole : (processLoop (fuel + 1) c buf).1.length = buf.length := by
        rw [hstep, List.length_append, houtlen, hlen, List.length_drop]
        omega
      refine ⟨hwhole, ?_⟩
      have hpos' : (processLoop (fuel + 1) c buf).1.length > 0 := by rw [hwhole]; exact hpos
      -- the second pass takes the same round, since the lengths agree
      rw [processLoop, if_pos hpos', hwhole, hstep]
      simp only [← hd, ← hn, ← he]
      rw [List.take_left' houtlen, List.drop_left' houtlen, hback, hout, xorBytes_xorBytes hmask,
        List.take_append_drop]
    · have hnil : buf = [] := List.length_eq_zero_iff.mp (by omega)
      rw [hnil]
      exact ⟨rfl, rfl⟩

lemma process_process (h : c.Sound) (buf : Bytes) : (c.process (c.process buf).1).1 = buf := by
  obtain ⟨hlen, hback⟩ := processLoop_processLoop buf.length h (le_refl buf.length)
  change (processLoop (processLoop buf.length c buf).1.length c (processLoop buf.length c buf).1).1 = buf
  rw [hlen]
  exact hback

end Aes256Ctr32

/-! ## Cipher block chaining -/

def pkcs7Pad (data : Bytes) : Bytes :=
  let pad := blockSize - data.length % blockSize
  data ++ List.replicate pad pad.toUInt8

def padGood (data : Bytes) (pad : Nat) : Bool :=
  (List.range blockSize).all fun i =>
    if blockSize - pad ≤ i then data.getD (data.length - blockSize + i) 0 == pad.toUInt8 else true

def pkcs7Unpad (data : Bytes) : Option Bytes :=
  if data.length = 0 ∨ data.length % blockSize ≠ 0 then none
  else
    let pad := (data.getD (data.length - 1) 0).toNat
    if pad = 0 ∨ pad > blockSize then none
    else if padGood data pad then some (data.take (data.length - pad)) else none

section
variable [Aes]

def cbcEncrypt (key : Bytes) : Nat → Bytes → Bytes → Bytes
  | 0, _, _ => []
  | n + 1, prev, data =>
    let block := encryptBlock key (xorBytes (data.take 16) prev)
    block ++ cbcEncrypt key n block (data.drop 16)

def cbcDecrypt (key : Bytes) : Nat → Bytes → Bytes → Bytes
  | 0, _, _ => []
  | n + 1, prev, data =>
    xorBytes (decryptBlock key (data.take 16)) prev ++ cbcDecrypt key n (data.take 16) (data.drop 16)

def encryptCBC (plaintext key iv : Bytes) : Except CryptoErr Bytes := do
  let key ← newAES256 key
  if iv.length ≠ blockSize then .error (.invalidCbcIV iv.length)
  else
    let padded := pkcs7Pad plaintext
    .ok (cbcEncrypt key (padded.length / blockSize) iv padded)

def decryptCBC (ciphertext key iv : Bytes) : Except CryptoErr Bytes := do
  let key ← newAES256 key
  if iv.length ≠ blockSize then .error (.invalidCbcIV iv.length)
  else if ciphertext.length = 0 ∨ ciphertext.length % blockSize ≠ 0 then .error .badCiphertextLength
  else
    match pkcs7Unpad (cbcDecrypt key (ciphertext.length / blockSize) iv ciphertext) with
    | some out => .ok out
    | none => .error .badPadding

lemma length_cbcEncrypt (key : Bytes) (n : Nat) (prev data : Bytes) :
    (cbcEncrypt key n prev data).length = 16 * n := by
  induction n generalizing prev data with
  | zero => rfl
  | succ n ih =>
    rw [cbcEncrypt, List.length_append, encryptBlock_length, ih]
    ring

lemma cbcDecrypt_cbcEncrypt (haes : Aes.Inverse) {key : Bytes} (hkey : key.length = 32) (n : Nat)
    {prev data : Bytes} (hprev : prev.length = 16) (hdata : data.length = 16 * n) :
    cbcDecrypt key n prev (cbcEncrypt key n prev data) = data := by
  induction n generalizing prev data with
  | zero => exact (List.length_eq_zero_iff.mp hdata).symm
  | succ n ih =>
    have htake : (data.take 16).length = 16 := by
      rw [List.length_take]
      omega
    have hblock : (xorBytes (data.take 16) prev).length = 16 := by
      rw [length_xorBytes, htake, hprev, Nat.min_self]
    have hrest : (data.drop 16).length = 16 * n := by
      rw [List.length_drop]
      omega
    rw [cbcEncrypt, cbcDecrypt, List.take_left' (encryptBlock_length _ _),
      List.drop_left' (encryptBlock_length _ _), haes _ _ hkey hblock,
      ih (encryptBlock_length _ _) hrest, xorBytes_xorBytes (by rw [htake, hprev]),
      List.take_append_drop]

end

lemma length_pkcs7Pad (data : Bytes) : (pkcs7Pad data).length = data.length + (16 - data.length % 16) ∧
      (pkcs7Pad data).length % 16 = 0 := by
  have hlen : (pkcs7Pad data).length = data.length + (16 - data.length % 16) := by
    rw [pkcs7Pad, List.length_append, List.length_replicate, blockSize]
  refine ⟨hlen, ?_⟩
  rw [hlen]
  omega

lemma pkcs7Unpad_pkcs7Pad (data : Bytes) : pkcs7Unpad (pkcs7Pad data) = some data := by
  obtain ⟨hlen, hmod⟩ := length_pkcs7Pad data
  set pad := 16 - data.length % 16 with hpad
  have hpos : 0 < pad := by omega
  have hle : pad ≤ 16 := Nat.sub_le _ _
  have hnum : pad.toUInt8.toNat = pad := by
    rw [Nat.toUInt8_eq, UInt8.toNat_ofNat']
    exact Nat.mod_eq_of_lt (by omega)
  have hdef : pkcs7Pad data = data ++ List.replicate pad pad.toUInt8 := rfl
  -- every byte past the data is a padding byte
  have hbyte : ∀ i, data.length ≤ i → i < data.length + pad →
      (pkcs7Pad data).getD i 0 = pad.toUInt8 := by
    intro i hlo hhi
    rw [hdef, List.getD_append_right _ _ _ _ hlo, List.getD_replicate _ (by omega)]
  have hlast : ((pkcs7Pad data).getD ((pkcs7Pad data).length - 1) 0).toNat = pad := by
    rw [hlen, hbyte _ (by omega) (by omega), hnum]
  have hgood : padGood (pkcs7Pad data) pad = true := by
    rw [padGood, List.all_eq_true]
    intro i hi
    have hi16 : i < 16 := List.mem_range.mp hi
    split
    · rename_i hge
      rw [blockSize] at hge ⊢
      rw [hlen, hbyte _ (by omega) (by omega)]
      exact beq_self_eq_true _
    · rfl
  rw [pkcs7Unpad, if_neg (by rw [blockSize]; omega)]
  simp only [hlast]
  rw [if_neg (by rw [blockSize]; omega), if_pos hgood, hlen, Nat.add_sub_cancel, hdef, List.take_left]

lemma decryptCBC_encryptCBC [Aes] (haes : Aes.Inverse) {plaintext key iv ctext : Bytes}
    (h : encryptCBC plaintext key iv = .ok ctext) : decryptCBC ctext key iv = .ok plaintext := by
  obtain ⟨k, hk, h⟩ := bind_eq_ok h
  have hk' := hk
  rw [newAES256] at hk'
  split at hk'
  · cases hk'
  · cases hk'
    rename_i hkey
    split at h
    · cases h
    · rename_i hiv
      cases h
      obtain ⟨hlen, hmod⟩ := length_pkcs7Pad plaintext
      have hblocks : (pkcs7Pad plaintext).length = 16 * ((pkcs7Pad plaintext).length / blockSize) := by
        rw [blockSize]
        omega
      rw [decryptCBC, hk, ok_bind, if_neg hiv, length_cbcEncrypt, ← hblocks, if_neg (by rw [blockSize]; omega),
        cbcDecrypt_cbcEncrypt haes (not_not.mp hkey) _ (not_not.mp hiv) hblocks, pkcs7Unpad_pkcs7Pad]

lemma encryptCBC_ok [Aes] (plaintext : Bytes) {key iv : Bytes} (hkey : key.length = 32)
    (hiv : iv.length = blockSize) : ∃ ctext, encryptCBC plaintext key iv = .ok ctext := by
  rw [encryptCBC, newAES256, if_neg (not_not.mpr hkey), ok_bind, if_neg (not_not.mpr hiv)]
  exact ⟨_, rfl⟩

end LibSignal.Crypto
