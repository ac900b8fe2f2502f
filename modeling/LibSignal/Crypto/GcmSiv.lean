import LibSignal.Crypto.Aes

/-!
# AES-256-GCM-SIV

Model of `internal/crypto/gcmsiv`: POLYVAL on two 64-bit limbs (`polyval.go`) and the AEAD on top of it
(`gcmsiv.go`).
-/

namespace LibSignal.Crypto
open Chunked (Bytes)
open Lib

structure FieldElement where
  lo : UInt64
  hi : UInt64
deriving DecidableEq, Repr

def le64 (b : Bytes) : UInt64 := (ofLe (b.take 8)).toUInt64

def bytesToFieldElement (b : Bytes) : FieldElement := ⟨le64 b, le64 (b.drop 8)⟩

namespace FieldElement

def bytes (e : FieldElement) : Bytes := leBytes 8 e.lo.toNat ++ leBytes 8 e.hi.toNat

def clmulStep (x y : UInt64) (acc : UInt64 × UInt64) (i : Nat) : UInt64 × UInt64 :=
  let bit := (y >>> i.toUInt64) &&& 1
  let mask := 0 - bit
  let lo := acc.2 ^^^ ((x <<< i.toUInt64) &&& mask)
  if i = 0 then (acc.1, lo) else (acc.1 ^^^ ((x >>> (64 - i).toUInt64) &&& mask), lo)

def clmul64 (x y : UInt64) : UInt64 × UInt64 := (List.range 64).foldl (clmulStep x y) (0, 0)

def clmul128 (a b : FieldElement) : List UInt64 :=
  let (h0, l0) := clmul64 a.lo b.lo
  let (h1, l1) := clmul64 a.hi b.hi
  let (hm, lm) := clmul64 (a.lo ^^^ a.hi) (b.lo ^^^ b.hi)
  let midLo := lm ^^^ l0 ^^^ l1
  let midHi := hm ^^^ h0 ^^^ h1
  [l0, h0 ^^^ midLo, l1 ^^^ midHi, h1]

def flipBit (z : List UInt64) (p : Nat) (bit : UInt64) : List UInt64 :=
  z.set (p / 64) (z.getD (p / 64) 0 ^^^ (bit <<< (p % 64).toUInt64))

def reduceStep (z : List UInt64) (j : Nat) : List UInt64 :=
  let k := 255 - j
  let bit := (z.getD (k / 64) 0 >>> (k % 64).toUInt64) &&& 1
  let z := flipBit z k bit
  let base := k - 128
  [127, 126, 121, 0].foldl (fun z off => flipBit z (base + off) bit) z

def reduce (z : List UInt64) : FieldElement :=
  let z := (List.range 128).foldl reduceStep z
  ⟨z.getD 0 0, z.getD 1 0⟩

def xInv128 : FieldElement :=
  ⟨1, (1 : UInt64) <<< 50 ||| (1 : UInt64) <<< 57 ||| (1 : UInt64) <<< 60 ||| (1 : UInt64) <<< 63⟩

def mul (e other : FieldElement) : FieldElement := reduce (clmul128 e other)

def dot (e other : FieldElement) : FieldElement := (e.mul other).mul xInv128

end FieldElement

def polyvalLoop (h : FieldElement) : Nat → FieldElement → Bytes → FieldElement
  | 0, acc, _ => acc
  | fuel + 1, acc, blocks =>
    if 16 ≤ blocks.length then
      let x := bytesToFieldElement (blocks.take 16)
      polyvalLoop h fuel (FieldElement.dot ⟨acc.lo ^^^ x.lo, acc.hi ^^^ x.hi⟩ h) (blocks.drop 16)
    else acc

def polyval (h : FieldElement) (blocks : Bytes) : FieldElement :=
  polyvalLoop h (blocks.length / 16) ⟨0, 0⟩ blocks

/-! ## The AEAD -/

inductive GcmSivErr where
  | keySize (got : Nat)
  | nonceSize (got : Nat)
  | openShort
  | openTag
  | inputTooLong
deriving DecidableEq, Repr

def maxPlaintextLen : Nat := 2 ^ 36 - 1
def maxADLen : Nat := 2 ^ 36
def tagSize : Nat := 16

section
variable [Aes]

def deriveBlock (kgk nonce : Bytes) (ctr : Nat) : Bytes :=
  (encryptBlock kgk (leBytes 4 ctr ++ nonce)).take 8

def deriveKeys (kgk nonce : Bytes) : Bytes × Bytes :=
  ([0, 1].flatMap (deriveBlock kgk nonce), [2, 3, 4, 5].flatMap (deriveBlock kgk nonce))

omit [Aes] in
def lengthBlock (aadLen plaintextLen : Nat) : Bytes :=
  leBytes 8 (aadLen * 8) ++ leBytes 8 (plaintextLen * 8)

omit [Aes] in
def appendPadded (dst data : Bytes) : Bytes :=
  let rem := data.length % 16
  if rem ≠ 0 then dst ++ data ++ zeros (16 - rem) else dst ++ data

omit [Aes] in
def tagBlock (authKey nonce plaintext aad : Bytes) : Bytes :=
  let buf := appendPadded (appendPadded [] aad) plaintext ++ lengthBlock aad.length plaintext.length
  let s := (polyval (bytesToFieldElement authKey) buf).bytes
  let s := xorBytes (s.take 12) nonce ++ s.drop 12
  s.set 15 (s.getD 15 0 &&& 0x7f)

def computeTag (authKey encKey nonce plaintext aad : Bytes) : Bytes :=
  encryptBlock encKey (tagBlock authKey nonce plaintext aad)

omit [Aes] in
def ctrCounterBlock (tag : Bytes) : Bytes := tag.set 15 (tag.getD 15 0 ||| 0x80)

/-- The loop of `ctrCrypt`: one block of the source at a time. -/
def ctrCryptLoop (encKey initialCtr : Bytes) : Nat → UInt32 → Bytes → Bytes
  | 0, _, _ => []
  | fuel + 1, counter, src =>
    if src.length = 0 then []
    else
      let ks := encryptBlock encKey (leBytes 4 counter.toNat ++ initialCtr.drop 4)
      xorBytes (src.take 16) ks ++ ctrCryptLoop encKey initialCtr fuel (counter + 1) (src.drop 16)

def ctrCrypt (encKey initialCtr src : Bytes) : Bytes :=
  ctrCryptLoop encKey initialCtr src.length (ofLe (initialCtr.take 4)).toUInt32 src

def gcmSivSeal (key nonce plaintext additionalData : Bytes) : Except GcmSivErr Bytes :=
  if key.length ≠ 32 then .error (.keySize key.length)
  else if nonce.length ≠ 12 then .error (.nonceSize nonce.length)
  else if plaintext.length > maxPlaintextLen ∨ additionalData.length > maxADLen then
    .error .inputTooLong
  else
    let (authKey, encKey) := deriveKeys key nonce
    let tag := computeTag authKey encKey nonce plaintext additionalData
    .ok (ctrCrypt encKey (ctrCounterBlock tag) plaintext ++ tag)

def gcmSivOpen (key nonce ciphertextAndTag additionalData : Bytes) : Except GcmSivErr Bytes :=
  if key.length ≠ 32 then .error (.keySize key.length)
  else if nonce.length ≠ 12 then .error (.nonceSize nonce.length)
  else if ciphertextAndTag.length < tagSize then .error .openShort
  else if ciphertextAndTag.length - tagSize > maxPlaintextLen ∨ additionalData.length > maxADLen then
    .error .inputTooLong
  else
    let ctLen := ciphertextAndTag.length - tagSize
    let ciphertext := ciphertextAndTag.take ctLen
    let receivedTag := ciphertextAndTag.drop ctLen
    let (authKey, encKey) := deriveKeys key nonce
    let plaintext := ctrCrypt encKey (ctrCounterBlock receivedTag) ciphertext
    if computeTag authKey encKey nonce plaintext additionalData = receivedTag then .ok plaintext
    else .error .openTag

/-! ## Opening what was sealed -/

def ctrBlock (encKey ctr : Bytes) (counter : UInt32) : Bytes :=
  encryptBlock encKey (leBytes 4 counter.toNat ++ ctr.drop 4)

lemma ctrCryptLoop_nil (encKey ctr : Bytes) (fuel : Nat) (counter : UInt32) :
    ctrCryptLoop encKey ctr fuel counter [] = [] := by
  cases fuel <;> rfl

lemma ctrCryptLoop_succ (encKey ctr : Bytes) (fuel : Nat) (counter : UInt32) (src : Bytes) :
    ctrCryptLoop encKey ctr (fuel + 1) counter src = xorBytes (src.take 16) (ctrBlock encKey ctr counter) ++
        ctrCryptLoop encKey ctr fuel (counter + 1) (src.drop 16) := by
  rw [ctrCryptLoop]
  split
  · rename_i hzero
    rw [List.length_eq_zero_iff.mp hzero]
    exact (ctrCryptLoop_nil encKey ctr fuel (counter + 1)).symm
  · rfl

omit [Aes] in
lemma take_masked {src ks rest : Bytes} (hks : ks.length = 16) (hrest : rest.length = (src.drop 16).length) :
    (xorBytes (src.take 16) ks ++ rest).take 16 = xorBytes (src.take 16) ks ∧
      (xorBytes (src.take 16) ks ++ rest).drop 16 = rest := by
  have hout : (xorBytes (src.take 16) ks).length = min 16 src.length := by
    rw [length_xorBytes, List.length_take, hks]
    omega
  by_cases h16 : 16 ≤ src.length
  · rw [Nat.min_eq_left h16] at hout
    exact ⟨List.take_left' hout, List.drop_left' hout⟩
  · -- a last, partial block: nothing follows it
    have hempty : rest = [] := by
      rw [List.length_drop] at hrest
      exact List.length_eq_zero_iff.mp (by omega)
    rw [hempty, List.append_nil]
    exact ⟨List.take_of_length_le (by omega), List.drop_eq_nil_of_le (by omega)⟩

lemma ctrCryptLoop_twice (encKey ctr : Bytes) (fuel : Nat) (counter : UInt32) {src : Bytes}
    (hfuel : src.length ≤ fuel) : (ctrCryptLoop encKey ctr fuel counter src).length = src.length ∧
      ctrCryptLoop encKey ctr fuel counter (ctrCryptLoop encKey ctr fuel counter src) = src := by
  induction fuel generalizing counter src with
  | zero =>
    have hnil : src = [] := List.length_eq_zero_iff.mp (Nat.le_zero.mp hfuel)
    rw [hnil]
    exact ⟨rfl, rfl⟩
  | succ fuel ih =>
    have hks : (ctrBlock encKey ctr counter).length = 16 := encryptBlock_length _ _
    have hmask : (src.take 16).length ≤ (ctrBlock encKey ctr counter).length := by
      rw [hks, List.length_take]
      exact Nat.min_le_left _ _
    have hrest : (src.drop 16).length ≤ fuel := by
      rw [List.length_drop]
      omega
    obtain ⟨hlen, hback⟩ := ih (counter + 1) hrest
    obtain ⟨htake, hdrop⟩ := take_masked hks hlen
    refine ⟨?_, ?_⟩
    · rw [ctrCryptLoop_succ, List.length_append, length_xorBytes, Nat.min_eq_left hmask, hlen,
        ← List.length_append, List.take_append_drop]
    · rw [ctrCryptLoop_succ, ctrCryptLoop_succ, htake, hdrop, hback, xorBytes_xorBytes hmask,
        List.take_append_drop]

lemma ctrCrypt_ctrCrypt (encKey ctr src : Bytes) : (ctrCrypt encKey ctr src).length = src.length ∧
      ctrCrypt encKey ctr (ctrCrypt encKey ctr src) = src := by
  obtain ⟨hlen, hback⟩ := ctrCryptLoop_twice encKey ctr src.length
    (ofLe (ctr.take 4)).toUInt32 (le_refl src.length)
  refine ⟨hlen, ?_⟩
  rw [ctrCrypt, ctrCrypt, hlen]
  exact hback

lemma gcmSivOpen_seal {key nonce plaintext aad sealed : Bytes}
    (h : gcmSivSeal key nonce plaintext aad = .ok sealed) :
    gcmSivOpen key nonce sealed aad = .ok plaintext := by
  rw [gcmSivSeal] at h
  split at h
  · cases h
  · rename_i hkey
    split at h
    · cases h
    · rename_i hnonce
      split at h
      · cases h
      · rename_i hlong
        set encKey := (deriveKeys key nonce).2
        set authKey := (deriveKeys key nonce).1
        set tag := computeTag authKey encKey nonce plaintext aad with htag
        set ct := ctrCrypt encKey (ctrCounterBlock tag) plaintext with hct
        have hsealed : sealed = ct ++ tag := (Except.ok.inj h).symm
        obtain ⟨hlen, hback⟩ := ctrCrypt_ctrCrypt encKey (ctrCounterBlock tag) plaintext
        have htaglen : tag.length = tagSize := encryptBlock_length _ _
        have hall : sealed.length = plaintext.length + tagSize := by
          rw [hsealed, List.length_append, htaglen, hct, hlen]
        rw [gcmSivOpen, if_neg hkey, if_neg hnonce, hall, if_neg (by omega), Nat.add_sub_cancel,
          if_neg hlong, hsealed]
        have hctlen : ct.length = plaintext.length := hlen
        simp only [List.take_left' hctlen, List.drop_left' hctlen]
        change (if computeTag authKey encKey nonce (ctrCrypt encKey (ctrCounterBlock tag) ct) aad = tag
          then _ else _) = _
        rw [hct, hback, if_pos htag.symm]

lemma gcmSivSeal_open {key nonce sealed aad plaintext : Bytes}
    (h : gcmSivOpen key nonce sealed aad = .ok plaintext) :
    gcmSivSeal key nonce plaintext aad = .ok sealed := by
  rw [gcmSivOpen] at h
  split_ifs at h with hkey hnonce hshort hlong
  dsimp only at h
  set ct := sealed.take (sealed.length - tagSize) with hct
  set tag := sealed.drop (sealed.length - tagSize) with htag
  set encKey := (deriveKeys key nonce).2
  set authKey := (deriveKeys key nonce).1
  split_ifs at h with hmatch
  cases h
  obtain ⟨hlen, hback⟩ := ctrCrypt_ctrCrypt encKey (ctrCounterBlock tag) ct
  have hctlen : ct.length = sealed.length - tagSize := by
    rw [hct, List.length_take]
    exact Nat.min_eq_left (Nat.sub_le _ _)
  rw [gcmSivSeal, if_neg hkey, if_neg hnonce, hlen, hctlen, if_neg hlong]
  dsimp only
  -- the tag is recomputed from the same plaintext, so the stream is the one that was taken off
  rw [hmatch, hback, List.take_append_drop]

/-- Sealing and opening are inverse: within the limits what was sealed opens to the plaintext, and what
opens is what sealing the plaintext gives, so one ciphertext opens to each plaintext. -/
theorem gcmSiv_inverse {key nonce aad : Bytes} (hkey : key.length = 32) (hnonce : nonce.length = 12) :
    (∀ plaintext : Bytes, plaintext.length ≤ maxPlaintextLen → aad.length ≤ maxADLen →
      ∃ sealed, gcmSivSeal key nonce plaintext aad = .ok sealed ∧
        gcmSivOpen key nonce sealed aad = .ok plaintext) ∧
    (∀ sealed plaintext, gcmSivOpen key nonce sealed aad = .ok plaintext →
      gcmSivSeal key nonce plaintext aad = .ok sealed) ∧
    ∀ sealed sealed' plaintext, gcmSivOpen key nonce sealed aad = .ok plaintext →
      gcmSivOpen key nonce sealed' aad = .ok plaintext → sealed = sealed' := by
  refine ⟨fun plaintext hplain haad => ?_, fun _ _ h => gcmSivSeal_open h, fun _ _ _ h h' => ?_⟩
  · have hsealed : ∃ sealed, gcmSivSeal key nonce plaintext aad = .ok sealed := by
      rw [gcmSivSeal, if_neg (not_not.mpr hkey), if_neg (not_not.mpr hnonce),
        if_neg (not_or.mpr ⟨Nat.not_lt.mpr hplain, Nat.not_lt.mpr haad⟩)]
      exact ⟨_, rfl⟩
    obtain ⟨sealed, hsealed⟩ := hsealed
    exact ⟨sealed, hsealed, gcmSivOpen_seal hsealed⟩
  · exact Except.ok.inj ((gcmSivSeal_open h).symm.trans (gcmSivSeal_open h'))

end

/-- The theorem on zero keys and a short plaintext. -/
theorem gcmSiv_inverse_sample : (zeros 32).length = 32 ∧ (zeros 12).length = 12 ∧
    ∃ sealed, @gcmSivSeal plainAes (zeros 32) (zeros 12) [1, 2, 3] [4] = .ok sealed ∧
      @gcmSivOpen plainAes (zeros 32) (zeros 12) sealed [4] = .ok [1, 2, 3] := by
  let _ := plainAes
  refine ⟨length_zeros 32, length_zeros 12, ?_⟩
  exact (gcmSiv_inverse (length_zeros 32) (length_zeros 12)).1 [1, 2, 3] (by decide) (by decide)

end LibSignal.Crypto
