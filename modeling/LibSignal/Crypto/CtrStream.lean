import LibSignal.Crypto.Aes
import LibSignal.Lib.Masking

/-!
# Positions in a CTR stream

`AtPosition` describes a stream that has handled a number of bytes: the block it stands in, the next counter
and the key stream block it keeps.
-/

namespace LibSignal.Crypto.Aes256Ctr32
open Chunked (Bytes)
open Lib

/-- The counter of a block, which wraps without touching the nonce. -/
def blockCounter (initCtr : UInt32) (block : Nat) : Nat := (initCtr.toNat + block) % 2 ^ 32

section
variable [Aes]

def streamByte (key nonce : Bytes) (initCtr : UInt32) (j : Nat) : UInt8 :=
  (encryptBlock key (nonce ++ beBytes 4 (blockCounter initCtr (j / 16)))).getD (j % 16) 0

def insideBlock (key nonce : Bytes) (initCtr : UInt32) (block used : Nat) : Aes256Ctr32 where
  key := key
  nonce := nonce
  counter := initCtr + UInt32.ofNat (block + 1)
  keystream := encryptBlock key (nonce ++ beBytes 4 (blockCounter initCtr block))
  ksUsed := used
  ksHasBlock := true

inductive AtPosition (key nonce : Bytes) (initCtr : UInt32) : Nat → Aes256Ctr32 → Prop where
  | fresh {keystream : Bytes} :
    AtPosition key nonce initCtr 0 ⟨key, nonce, initCtr, keystream, 0, false⟩
  | within (block : Nat) {used : Nat} (hused : used ≤ 16) :
    AtPosition key nonce initCtr (16 * block + used) (insideBlock key nonce initCtr block used)

variable {key nonce : Bytes} {initCtr : UInt32} {pos : Nat} {c : Aes256Ctr32}

omit [Aes] in
lemma toNat_add_ofNat (n : Nat) : (initCtr + UInt32.ofNat n).toNat = blockCounter initCtr n := by
  rw [UInt32.toNat_add, UInt32.toNat_ofNat', Nat.add_mod_mod, blockCounter]

lemma fillKeystream_eq {keystream : Bytes} {used : Nat} {has : Bool} (block : Nat) :
    fillKeystream ⟨key, nonce, initCtr + UInt32.ofNat block, keystream, used, has⟩ =
      insideBlock key nonce initCtr block 0 := by
  have hcounter : initCtr + UInt32.ofNat block + 1 = initCtr + UInt32.ofNat (block + 1) := by
    rw [UInt32.add_assoc, UInt32.ofNat_add]
    rfl
  rw [fillKeystream, insideBlock, toNat_add_ofNat, hcounter]

lemma AtPosition.ready (h : AtPosition key nonce initCtr pos c) :
    ∃ block used, used < 16 ∧ pos = 16 * block + used ∧ c.ready = insideBlock key nonce initCtr block used := by
  cases h with
  | @fresh keystream =>
    have hfill : fillKeystream ⟨key, nonce, initCtr + UInt32.ofNat 0, keystream, 0, false⟩ = _ :=
      fillKeystream_eq 0
    refine ⟨0, 0, by decide, rfl, ?_⟩
    have hzero : initCtr + UInt32.ofNat 0 = initCtr := UInt32.add_zero initCtr
    rw [hzero] at hfill
    rw [Aes256Ctr32.ready, if_pos (Or.inl Bool.false_ne_true), hfill]
  | @within block used hused =>
    rcases Nat.lt_or_eq_of_le hused with hlt | rfl
    · refine ⟨block, used, hlt, rfl, if_neg ?_⟩
      rintro (hno | hfull)
      · exact hno rfl
      · exact absurd hfull (Nat.ne_of_lt hlt)
    · -- the block is used up, and the next one is filled in
      refine ⟨block + 1, 0, by decide, rfl, ?_⟩
      have hfull : (insideBlock key nonce initCtr block 16).ksUsed = blockSize := rfl
      rw [Aes256Ctr32.ready, if_pos (Or.inr hfull)]
      exact fillKeystream_eq (block + 1)

lemma getD_keystream {block used i : Nat} (h : used + i < 16) :
    ((insideBlock key nonce initCtr block used).keystream.drop used).getD i 0 =
      streamByte key nonce initCtr (16 * block + used + i) := by
  have hdiv : (16 * block + used + i) / 16 = block := by omega
  have hmod : (16 * block + used + i) % 16 = used + i := by omega
  rw [streamByte, hdiv, hmod, insideBlock, List.getD_eq_getElem?_getD, List.getElem?_drop,
    ← List.getD_eq_getElem?_getD]

lemma AtPosition.processLoop (fuel : Nat) {buf : Bytes} (h : AtPosition key nonce initCtr pos c)
    (hfuel : buf.length ≤ fuel) : (processLoop fuel c buf).1 = maskFrom (streamByte key nonce initCtr) pos buf ∧
      AtPosition key nonce initCtr (pos + buf.length) (processLoop fuel c buf).2 := by
  induction fuel generalizing pos c buf with
  | zero =>
    obtain rfl : buf = [] := List.length_eq_zero_iff.mp (Nat.le_zero.mp hfuel)
    exact ⟨rfl, h⟩
  | succ fuel ih =>
    cases buf with
    | nil => exact ⟨rfl, h⟩
    | cons b bs =>
      obtain ⟨block, used, hused, rfl, hready⟩ := h.ready
      set d := insideBlock key nonce initCtr block used with hd
      set n := d.roundLen (b :: bs).length with hn
      have hsome : (b :: bs).length > 0 := Nat.zero_lt_succ _
      have hpos : 0 < n := roundLen_pos hsome hused
      obtain ⟨hle, hroom⟩ := d.roundLen_le (b :: bs).length
      have hroom : n ≤ 16 - used := hroom
      have htake : ((b :: bs).take n).length = n := List.length_take_of_le hle
      have hmask : xorBytes ((b :: bs).take n) (d.keystream.drop d.ksUsed) =
          maskFrom (streamByte key nonce initCtr) (16 * block + used) ((b :: bs).take n) := by
        apply xorBytes_eq_maskFrom
        · rw [htake, List.length_drop, hd, insideBlock, encryptBlock_length]
          exact hroom
        · intro i hi
          exact getD_keystream (by omega)
      have hnext : AtPosition key nonce initCtr (16 * block + used + n) { d with ksUsed := d.ksUsed + n } := by
        rw [Nat.add_assoc]
        exact AtPosition.within block (by omega)
      have hrest : ((b :: bs).drop n).length = (b :: bs).length - n := List.length_drop ..
      obtain ⟨hout, hat⟩ := ih hnext (by omega : ((b :: bs).drop n).length ≤ fuel)
      have hstep : Aes256Ctr32.processLoop (fuel + 1) c (b :: bs) =
          (xorBytes ((b :: bs).take n) (d.keystream.drop d.ksUsed) ++
            (Aes256Ctr32.processLoop fuel { d with ksUsed := d.ksUsed + n } ((b :: bs).drop n)).1,
          (Aes256Ctr32.processLoop fuel { d with ksUsed := d.ksUsed + n } ((b :: bs).drop n)).2) := by
        rw [Aes256Ctr32.processLoop, if_pos hsome, hready]
      rw [hstep]
      refine ⟨?_, ?_⟩
      · conv_rhs => rw [← List.take_append_drop n (b :: bs)]
        rw [hmask, hout, maskFrom_append, htake]
      · have hsum : 16 * block + used + n + ((b :: bs).drop n).length =
            16 * block + used + (b :: bs).length := by omega
        rw [← hsum]
        exact hat

lemma AtPosition.process (h : AtPosition key nonce initCtr pos c) (buf : Bytes) :
    (c.process buf).1 = maskFrom (streamByte key nonce initCtr) pos buf ∧
      AtPosition key nonce initCtr (pos + buf.length) (c.process buf).2 :=
  h.processLoop buf.length (le_refl _)

def processAll : Aes256Ctr32 → List Bytes → List Bytes
  | _, [] => []
  | c, buf :: bufs => (c.process buf).1 :: processAll (c.process buf).2 bufs

lemma AtPosition.processAll (h : AtPosition key nonce initCtr pos c) (bufs : List Bytes) :
    (c.processAll bufs).flatten = maskFrom (streamByte key nonce initCtr) pos bufs.flatten := by
  induction bufs generalizing pos c with
  | nil => rfl
  | cons buf bufs ih =>
    obtain ⟨hout, hat⟩ := h.process buf
    rw [Aes256Ctr32.processAll, List.flatten_cons, List.flatten_cons, maskFrom_append, hout, ih hat]

lemma AtPosition.lengths (h : AtPosition key nonce initCtr pos c) (bufs : List Bytes) :
    (c.processAll bufs).map List.length = bufs.map List.length := by
  induction bufs generalizing pos c with
  | nil => rfl
  | cons buf bufs ih =>
    obtain ⟨hout, hat⟩ := h.process buf
    rw [Aes256Ctr32.processAll, List.map_cons, List.map_cons, ih hat, hout, length_maskFrom]

/-- CTR streaming is exact in the position. However a text is cut into buffers, the stream gives what it
gives on the whole text; byte `j` is masked with byte `j % 16` of the encryption of the nonce and the
wrapped counter of its block; and a second stream with the same parameters restores the text under every
other cutting. -/
theorem stream_exact (key nonce : Bytes) (initCtr : UInt32) (hkey : key.length = 32)
    (hnonce : nonce.length = nonceSizeCTR) :
    ∃ c, newAES256CTR32 key nonce initCtr = .ok c ∧ ∀ bufs : List Bytes,
      (c.processAll bufs).flatten = (c.process bufs.flatten).1 ∧
      (c.processAll bufs).map List.length = bufs.map List.length ∧
      (∀ j < bufs.flatten.length, (c.processAll bufs).flatten.getD j 0 = bufs.flatten.getD j 0 ^^^
          (encryptBlock key (nonce ++ beBytes 4 ((initCtr.toNat + j / 16) % 2 ^ 32))).getD (j % 16) 0) ∧
      ∀ bufs' : List Bytes, bufs'.flatten = (c.processAll bufs).flatten →
        (c.processAll bufs').flatten = bufs.flatten := by
  have hnew : newAES256CTR32 key nonce initCtr = .ok ⟨key, nonce, initCtr, zeros 16, 0, false⟩ := by
    rw [newAES256CTR32, newAES256, if_neg (not_not.mpr hkey), ok_bind, if_neg (not_not.mpr hnonce)]
  have hat : AtPosition key nonce initCtr 0 ⟨key, nonce, initCtr, zeros 16, 0, false⟩ := AtPosition.fresh
  refine ⟨_, hnew, ?_⟩
  intro bufs
  refine ⟨?_, hat.lengths bufs, ?_, ?_⟩
  · rw [hat.processAll, (hat.process _).1]
  · intro j hj
    rw [hat.processAll, getD_maskFrom hj, Nat.zero_add]
    rfl
  · intro bufs' hcut
    rw [hat.processAll, hcut, hat.processAll, maskFrom_maskFrom]

end

/-- A stream that starts one block before the counter wraps. -/
theorem stream_exact_wrapping :
    ∃ c, newAES256CTR32 (zeros 32) (zeros 12) 0xFFFFFFFF = .ok c ∧ ∀ bufs : List Bytes,
      (@processAll plainAes c bufs).flatten = (@process plainAes c bufs.flatten).1 ∧
      (@processAll plainAes c bufs).map List.length = bufs.map List.length ∧
      (∀ j < bufs.flatten.length, (@processAll plainAes c bufs).flatten.getD j 0 = bufs.flatten.getD j 0 ^^^
          (@encryptBlock plainAes (zeros 32)
            (zeros 12 ++ beBytes 4 (((0xFFFFFFFF : UInt32).toNat + j / 16) % 2 ^ 32))).getD (j % 16) 0) ∧
      ∀ bufs' : List Bytes, bufs'.flatten = (@processAll plainAes c bufs).flatten →
        (@processAll plainAes c bufs').flatten = bufs.flatten :=
  @stream_exact plainAes (zeros 32) (zeros 12) 0xFFFFFFFF rfl rfl

end LibSignal.Crypto.Aes256Ctr32
