import LibSignal.Mlkem.Kem

/-!
# Incremental ML-KEM-768

Model of `internal/mlkem768incr/incremental.go`: the split of a public key into a header and the encoded
vector, encapsulation in two phases with a saved state, the repair of a state whose 16-bit integers were
written with swapped bytes, and decapsulation with an expanded key.
-/

namespace LibSignal.Mlkem
open Chunked (Bytes be16 ofBe16)
open Crypto (IncrementalKey EncapsulationResult zeros length_zeros length_zeros_32)
open Lib

/-! ## Repair of the byte order -/

/-- What a coefficient of `e2` says about the byte order (`FixEncapsStateEndianness`). -/
inductive Verdict where
  | undecided
  | keep
  | flip
deriving DecidableEq, Repr

def verdict (v : Int16) : Verdict :=
  if v = 0 ∨ v = -1 then .undecided
  else if v = 1 ∨ v = 2 ∨ v = -2 then .keep
  else if v = 0x0100 ∨ v = 0x0200 ∨ v = -0x0101 then .flip
  else .keep

def needsFlip : Bytes → Bool
  | b0 :: b1 :: b =>
    match verdict (ofBe16 b1 b0).toInt16 with
    | .undecided => needsFlip b
    | .keep => false
    | .flip => true
  | _ => false

def swapPairs : Bytes → Bytes
  | b0 :: b1 :: b => b1 :: b0 :: swapPairs b
  | b => b

def polynomialsSize : Nat := k * rawPolyI16Size + rawPolyI16Size

def swapState (state : Bytes) : Bytes := swapPairs (state.take polynomialsSize) ++ state.drop polynomialsSize

def e2Region (state : Bytes) : Bytes := (state.drop (k * rawPolyI16Size)).take rawPolyI16Size

def fixEncapsStateEndianness (state : Bytes) : Except MlkemErr Bytes :=
  if state.length ≠ encapsStateSize then .error .invalidEncapsStateLength
  else if needsFlip (e2Region state) then .ok (swapState state)
  else .ok state

lemma swapPairs_swapPairs (b : Bytes) : swapPairs (swapPairs b) = b := by
  induction b using swapPairs.induct with
  | case1 b0 b1 b ih => rw [swapPairs, swapPairs, ih]
  | case2 b hb =>
    have hsame : swapPairs b = b := swapPairs.eq_2 b hb
    rw [hsame, hsame]

lemma length_swapPairs (b : Bytes) : (swapPairs b).length = b.length := by
  induction b using swapPairs.induct with
  | case1 b0 b1 b ih => simp only [swapPairs, List.length_cons, ih]
  | case2 b hb => rw [swapPairs.eq_2 b hb]

lemma drop_swapPairs (b : Bytes) (j : Nat) : (swapPairs b).drop (j * 2) = swapPairs (b.drop (j * 2)) := by
  induction j generalizing b with
  | zero => rfl
  | succ j ih =>
    match b with
    | [] => rfl
    | [_] => simp [swapPairs, Nat.succ_mul]
    | b0 :: b1 :: b =>
      rw [swapPairs, Nat.succ_mul]
      exact ih b

lemma take_swapPairs (b : Bytes) (j : Nat) (hlen : j * 2 ≤ b.length) :
    (swapPairs b).take (j * 2) = swapPairs (b.take (j * 2)) := by
  induction j generalizing b with
  | zero => rfl
  | succ j ih =>
    match b with
    | [] => rfl
    | [_] =>
      rw [List.length_singleton] at hlen
      omega
    | b0 :: b1 :: b =>
      rw [List.length_cons, List.length_cons] at hlen
      have hrest := ih b (by omega)
      rw [swapPairs, Nat.succ_mul]
      simp only [List.take_succ_cons, swapPairs, hrest]

variable {b0 b1 : UInt8} {state : Bytes}

lemma word_eq_iff {w : UInt16} : (ofBe16 b1 b0).toInt16 = w.toInt16 ↔ (b1, b0) = be16 w := by
  refine ⟨fun h => ?_, fun h => ?_⟩
  · have hword : ofBe16 b1 b0 = w := congrArg Int16.toUInt16 h
    rw [← hword, Chunked.be16_ofBe16]
  · have hword := Chunked.ofBe16_be16 w
    rw [← h] at hword
    exact congrArg UInt16.toInt16 hword

lemma eq_of_verdict_undecided (h : verdict (ofBe16 b1 b0).toInt16 = .undecided) : b0 = b1 := by
  have hvalue : (ofBe16 b1 b0).toInt16 = 0 ∨ (ofBe16 b1 b0).toInt16 = -1 := by
    by_contra hno
    rw [verdict, if_neg hno] at h
    split at h
    · cases h
    · split at h <;> cases h
  obtain hzero | hminus := hvalue
  · have hbytes := (word_eq_iff (w := 0)).mp hzero
    exact (congrArg Prod.snd hbytes).trans (congrArg Prod.fst hbytes).symm
  · have hbytes := (word_eq_iff (w := 0xFFFF)).mp hminus
    exact (congrArg Prod.snd hbytes).trans (congrArg Prod.fst hbytes).symm

lemma verdict_swap_of_flip (h : verdict (ofBe16 b1 b0).toInt16 = .flip) :
    verdict (ofBe16 b0 b1).toInt16 = .keep := by
  have hvalue : (ofBe16 b1 b0).toInt16 = 0x0100 ∨ (ofBe16 b1 b0).toInt16 = 0x0200 ∨
      (ofBe16 b1 b0).toInt16 = -0x0101 := by
    rw [verdict] at h
    split at h
    · cases h
    · split at h
      · cases h
      · split at h
        · assumption
        · cases h
  have hbytes : (b1, b0) = be16 0x0100 ∨ (b1, b0) = be16 0x0200 ∨ (b1, b0) = be16 0xFEFF := by
    obtain hvalue | hvalue | hvalue := hvalue
    · exact .inl (word_eq_iff.mp hvalue)
    · exact .inr (.inl (word_eq_iff.mp hvalue))
    · exact .inr (.inr (word_eq_iff.mp hvalue))
  obtain hbytes | hbytes | hbytes := hbytes <;>
    · obtain ⟨rfl, rfl⟩ := Prod.mk.inj hbytes
      decide

lemma needsFlip_swapPairs {b : Bytes} (h : needsFlip b = true) : needsFlip (swapPairs b) = false := by
  induction b using needsFlip.induct with
  | case1 b0 b1 b hverdict ih =>
    rw [needsFlip, hverdict] at h
    have hsame := eq_of_verdict_undecided hverdict
    subst hsame
    rw [swapPairs, needsFlip, hverdict]
    exact ih h
  | case2 b0 b1 b hverdict =>
    rw [needsFlip, hverdict] at h
    cases h
  | case3 b0 b1 b hverdict => rw [swapPairs, needsFlip, verdict_swap_of_flip hverdict]
  | case4 b hb =>
    rw [needsFlip.eq_2 b hb] at h
    cases h

/-! ## States with small noise -/

/-- A coefficient of the error distribution. -/
def FieldElement.IsSmall (c : FieldElement) : Prop := -2 ≤ c.centered ∧ c.centered ≤ 2

/-- A coefficient that shows the byte order. -/
def FieldElement.IsDecisive (c : FieldElement) : Prop := c.centered = 1 ∨ c.centered = 2 ∨ c.centered = -2

lemma toBalanced_eq {c : FieldElement} {v : Int16} (h : c.centered = v.toInt) : toBalanced c = v :=
  Int16.toInt_inj.mp ((toInt_toBalanced c).trans h)

lemma toBalanced_of_isSmall {c : FieldElement} (h : c.IsSmall) :
    (toBalanced c = 0 ∨ toBalanced c = -1) ∧ ¬c.IsDecisive ∨
      (toBalanced c = 1 ∨ toBalanced c = 2 ∨ toBalanced c = -2) ∧ c.IsDecisive := by
  obtain ⟨hlow, hhigh⟩ := h
  have hcases : c.centered = 0 ∨ c.centered = -1 ∨ c.centered = 1 ∨ c.centered = 2 ∨ c.centered = -2 := by omega
  unfold FieldElement.IsDecisive
  obtain hv | hv | hv | hv | hv := hcases
  · exact .inl ⟨.inl (toBalanced_eq hv), by omega⟩
  · exact .inl ⟨.inr (toBalanced_eq hv), by omega⟩
  · exact .inr ⟨.inl (toBalanced_eq hv), by omega⟩
  · exact .inr ⟨.inr (.inl (toBalanced_eq hv)), by omega⟩
  · exact .inr ⟨.inr (.inr (toBalanced_eq hv)), by omega⟩

lemma needsFlip_toRawI16 {f : List FieldElement} (h : ∀ c ∈ f, c.IsSmall) : needsFlip (toRawI16 f) = false := by
  induction f with
  | nil => rfl
  | cons c f ih =>
    have hrest := ih fun c' hc' => h c' (List.mem_cons_of_mem _ hc')
    rw [toRawI16, needsFlip, Chunked.ofBe16_be16, Int16.toInt16_toUInt16]
    obtain ⟨hundecided, -⟩ | ⟨hdecisive, -⟩ := toBalanced_of_isSmall (h c (List.mem_cons_self ..))
    · rw [verdict, if_pos hundecided]
      exact hrest
    · have hkeep : verdict (toBalanced c) = .keep := by
        obtain hv | hv | hv := hdecisive <;> rw [hv] <;> decide
      rw [hkeep]

lemma needsFlip_swapPairs_toRawI16 {f : List FieldElement} (h : ∀ c ∈ f, c.IsSmall)
    (hdecisive : ∃ c ∈ f, c.IsDecisive) : needsFlip (swapPairs (toRawI16 f)) = true := by
  induction f with
  | nil =>
    obtain ⟨c, hc, -⟩ := hdecisive
    cases hc
  | cons c f ih =>
    rw [toRawI16, swapPairs, needsFlip]
    obtain ⟨hundecided, hnot⟩ | ⟨hvalue, -⟩ := toBalanced_of_isSmall (h c (List.mem_cons_self ..))
    · have hverdict : verdict (ofBe16 (be16 (toBalanced c).toUInt16).2 (be16 (toBalanced c).toUInt16).1).toInt16 =
          .undecided := by
        obtain hv | hv := hundecided <;> rw [hv] <;> decide
      rw [hverdict]
      refine ih (fun c' hc' => h c' (List.mem_cons_of_mem _ hc')) ?_
      obtain ⟨c', hc', hshows⟩ := hdecisive
      obtain rfl | hmem := List.mem_cons.mp hc'
      · exact absurd hshows hnot
      · exact ⟨c', hmem, hshows⟩
    · have hverdict : verdict (ofBe16 (be16 (toBalanced c).toUInt16).2 (be16 (toBalanced c).toUInt16).1).toInt16 =
          .flip := by
        obtain hv | hv | hv := hvalue <;> rw [hv] <;> decide
      rw [hverdict]

lemma length_swapState (h : state.length = encapsStateSize) : (swapState state).length = encapsStateSize := by
  have hle : polynomialsSize ≤ state.length := by
    rw [h]
    decide
  rw [swapState, List.length_append, length_swapPairs, List.length_take, List.length_drop, h]
  rfl

lemma take_swapState (h : state.length = encapsStateSize) :
    (swapState state).take polynomialsSize = swapPairs (state.take polynomialsSize) := by
  have hlen : (swapPairs (state.take polynomialsSize)).length = polynomialsSize := by
    rw [length_swapPairs, List.length_take, h]
    rfl
  rw [swapState]
  exact List.take_left' hlen

lemma drop_swapState (h : state.length = encapsStateSize) :
    (swapState state).drop polynomialsSize = state.drop polynomialsSize := by
  have hlen : (swapPairs (state.take polynomialsSize)).length = polynomialsSize := by
    rw [length_swapPairs, List.length_take, h]
    rfl
  rw [swapState]
  exact List.drop_left' hlen

lemma swapState_swapState (h : state.length = encapsStateSize) : swapState (swapState state) = state := by
  rw [swapState, take_swapState h, drop_swapState h, swapPairs_swapPairs, List.take_append_drop]

lemma e2Region_eq (state : Bytes) :
    e2Region state = ((state.take polynomialsSize).drop (768 * 2)).take (256 * 2) := by
  rw [List.drop_take, List.take_take]
  rfl

lemma e2Region_swapState (h : state.length = encapsStateSize) :
    e2Region (swapState state) = swapPairs (e2Region state) := by
  have hlen : 256 * 2 ≤ ((state.take polynomialsSize).drop (768 * 2)).length := by
    rw [List.length_drop, List.length_take, h]
    decide
  rw [e2Region_eq, e2Region_eq, take_swapState h, drop_swapPairs, take_swapPairs _ _ hlen]

lemma e2Region_encodeEncapsState (r : Vec) (e2 : Poly) (m : Message) :
    e2Region (encodeEncapsState r e2 m) = toRawI16 e2.coeffs := by
  rw [e2Region, encodeEncapsState_eq]
  exact take_drop_flatten (length_statePieces r e2) (show 3 < 4 by decide) m.1

lemma fix_encodeEncapsState (r : Vec) (e2 : Poly) (m : Message) (h : ∀ c ∈ e2.coeffs, c.IsSmall) :
    fixEncapsStateEndianness (encodeEncapsState r e2 m) = .ok (encodeEncapsState r e2 m) := by
  rw [fixEncapsStateEndianness, if_neg (not_not.mpr (length_encodeEncapsState r e2 m)), e2Region_encodeEncapsState,
    needsFlip_toRawI16 h]
  rfl

lemma fix_swapState (r : Vec) (e2 : Poly) (m : Message) (h : ∀ c ∈ e2.coeffs, c.IsSmall)
    (hdecisive : ∃ c ∈ e2.coeffs, c.IsDecisive) :
    fixEncapsStateEndianness (swapState (encodeEncapsState r e2 m)) = .ok (encodeEncapsState r e2 m) := by
  have hlen := length_encodeEncapsState r e2 m
  rw [fixEncapsStateEndianness, if_neg (not_not.mpr (length_swapState hlen)), e2Region_swapState hlen,
    e2Region_encodeEncapsState, needsFlip_swapPairs_toRawI16 h hdecisive, if_pos rfl, swapState_swapState hlen]

lemma fix_idempotent (h : state.length = encapsStateSize) :
    ∃ fixed, fixEncapsStateEndianness state = .ok fixed ∧ fixEncapsStateEndianness fixed = .ok fixed ∧
      fixed.drop polynomialsSize = state.drop polynomialsSize := by
  by_cases hflip : needsFlip (e2Region state) = true
  · have hnot := needsFlip_swapPairs hflip
    refine ⟨swapState state, ?_, ?_, drop_swapState h⟩
    · rw [fixEncapsStateEndianness, if_neg (not_not.mpr h), if_pos hflip]
    · rw [fixEncapsStateEndianness, if_neg (not_not.mpr (length_swapState h)), e2Region_swapState h, hnot]
      rfl
  · have hsame : fixEncapsStateEndianness state = .ok state := by
      rw [fixEncapsStateEndianness, if_neg (not_not.mpr h), if_neg hflip]
    exact ⟨state, hsame, hsame, rfl⟩

section Model
variable [Sha3]

def encodePublicKey1 (ek : EncapsulationKey768) : Bytes := ek.rho.1 ++ ek.h.1

def EncapsulationKey768.encodePublicKey2 (ek : EncapsulationKey768) : Bytes := encodeVec ek.encryptionKey.t

def DecapsulationKey768.encodeExpanded (dk : DecapsulationKey768) : Bytes :=
  encodeVec dk.s ++ dk.encapsulationKey.bytes ++ dk.h.1 ++ dk.z.1

def generateIncrementalKey (reads : Nat) (seed : Bytes) : Except MlkemErr IncrementalKey := do
  let dk ← newDecapsulationKey768 reads seed
  let ek := dk.encapsulationKey
  return { pk1 := encodePublicKey1 ek, pk2 := ek.encodePublicKey2, dk := dk.encodeExpanded }

def validatePublicKeyParts (reads : Nat) (pk1 pk2 : Bytes) : Except MlkemErr Unit := do
  if pk1.length ≠ Crypto.publicKey1Size then throw .invalidPk1Length
  if pk2.length ≠ Crypto.publicKey2Size then throw .invalidPk2Length
  let rho := pk1.take 32
  let hash := pk1.drop 32
  let ek := pk2 ++ rho
  if (sha3_256 ek).1 ≠ hash then throw .hashMismatch
  let _ ← newEncapsulationKey768 reads ek
  return ()

def encapsulate1Internal (reads : Nat) (pk1 : Bytes) (m : Message) : Except MlkemErr EncapsulationResult := do
  if pk1.length ≠ Crypto.publicKey1Size then throw .invalidPk1Length
  let rho := pk1.take 32
  let hash := pk1.drop 32
  let digest := sha3_512 (m.1 ++ hash)
  let a ← sampleMatrix reads rho
  let noise := sampleNoise (secondHalf digest).1
  return {
    ciphertext1 := encodeU (encryptU a noise)
    encapsState := encodeEncapsState noise.r noise.e2 m
    sharedSecret := (firstHalf digest).1 }

omit [Sha3] in
def encapsulate2 (state pk2 : Bytes) : Except MlkemErr Bytes := do
  if pk2.length ≠ Crypto.publicKey2Size then throw .invalidPk2Length
  let fixed ← fixEncapsStateEndianness state
  let (r, e2, m) ← decodeEncapsState fixed
  let t ← decodeVec pk2
  return ringCompressAndEncode4 (encryptV t r e2 m)

def decapsulationKeySize : Nat := k * encodingSize12 + encapsulationKeySize768 + 32 + 32

def decodeExpandedDecapsulationKey (reads : Nat) (b : Bytes) : Except MlkemErr DecapsulationKey768 :=
  if hlen : b.length = decapsulationKeySize then do
    let s ← decodeVec b
    let ek ← newEncapsulationKey768 reads ((b.drop (k * encodingSize12)).take encapsulationKeySize768)
    let rest := b.drop (k * encodingSize12 + encapsulationKeySize768)
    if ek.h.1 ≠ rest.take 32 then throw .expandedHashMismatch
    return {
      d := ⟨zeros 32, length_zeros_32⟩
      z := slice b (k * encodingSize12 + encapsulationKeySize768 + 32) 32 hlen.ge
      rho := ek.rho
      h := ek.h
      encryptionKey := ek.encryptionKey
      s := s }
  else .error .invalidDecapsulationKeyLength

def decapsulateCompressedKey (reads : Nat) (dk ct1 ct2 : Bytes) : Except MlkemErr Bytes := do
  if dk.length ≠ decapsulationKeySize then throw .invalidDecapsulationKeyLength
  if ct1.length ≠ Crypto.ciphertext1Size then throw .invalidCt1Length
  if ct2.length ≠ Crypto.ciphertext2Size then throw .invalidCt2Length
  let d ← decodeExpandedDecapsulationKey reads dk
  d.decapsulate (ct1 ++ ct2)

/-! ## Comparison with the standard functions -/

omit [Sha3] in
lemma encodeVec_eq (v : Vec) :
    encodeVec v = [polyByteEncode (v 0), polyByteEncode (v 1), polyByteEncode (v 2)].flatten := by
  simp [encodeVec, List.finRange_succ]

omit [Sha3] in
lemma length_encodeVec (v : Vec) : (encodeVec v).length = k * encodingSize12 := by
  simp only [encodeVec_eq, List.flatten_cons, List.flatten_nil, List.length_append, length_polyByteEncode,
    List.length_nil]
  rfl

omit [Sha3] in
lemma decodeVec_encodeVec_append (v : Vec) (rest : Bytes) : decodeVec (encodeVec v ++ rest) = .ok v := by
  have hlen : ∀ p ∈ [polyByteEncode (v 0), polyByteEncode (v 1), polyByteEncode (v 2)], p.length = encodingSize12 := by
    intro p hp
    simp only [List.mem_cons, List.not_mem_nil, or_false] at hp
    obtain rfl | rfl | rfl := hp <;> exact length_polyByteEncode _
  have h0 : (encodeVec v ++ rest).take encodingSize12 = polyByteEncode (v 0) := by
    have hslice := take_drop_flatten hlen (show 0 < 3 by decide) rest
    rwa [← encodeVec_eq, Nat.zero_mul, List.drop_zero] at hslice
  have h₁ : ((encodeVec v ++ rest).drop encodingSize12).take encodingSize12 = polyByteEncode (v 1) := by
    have hslice := take_drop_flatten hlen (show 1 < 3 by decide) rest
    rwa [← encodeVec_eq, Nat.one_mul] at hslice
  have h₂ : ((encodeVec v ++ rest).drop (2 * encodingSize12)).take encodingSize12 = polyByteEncode (v 2) := by
    have hslice := take_drop_flatten hlen (show 2 < 3 by decide) rest
    rwa [← encodeVec_eq] at hslice
  have hvec : ![v 0, v 1, v 2] = v := by
    funext i
    match i with
    | 0 => rfl
    | 1 => rfl
    | 2 => rfl
  rw [decodeVec, h0, h₁, h₂, polyByteDecode_eq_ok.mpr rfl, polyByteDecode_eq_ok.mpr rfl, polyByteDecode_eq_ok.mpr rfl]
  exact congrArg Except.ok hvec

omit [Sha3] in
lemma decodeVec_encodeVec (v : Vec) : decodeVec (encodeVec v) = .ok v := by
  have happend := decodeVec_encodeVec_append v []
  rwa [List.append_nil] at happend

variable {reads : Nat}

lemma Expanded.newEncapsulationKey768 {dk : DecapsulationKey768} (h : Expanded reads dk) :
    newEncapsulationKey768 reads dk.encapsulationKey.bytes = .ok dk.encapsulationKey := by
  have hlen : dk.encapsulationKey.bytes.length = encapsulationKeySize768 := by
    rw [EncapsulationKey768.bytes, List.length_append, length_encodeVec, dk.encapsulationKey.rho.2]
    rfl
  have hrho : (slice dk.encapsulationKey.bytes (k * encodingSize12) 32 hlen.ge) = dk.rho := by
    refine Subtype.ext ((slice_val _ _ _ _).trans ?_)
    rw [EncapsulationKey768.bytes, ← length_encodeVec dk.encapsulationKey.encryptionKey.t, List.drop_left]
    exact List.take_of_length_le dk.rho.2.le
  have ht : decodeVec dk.encapsulationKey.bytes = .ok dk.encryptionKey.t :=
    decodeVec_encodeVec_append dk.encryptionKey.t dk.rho.1
  rw [Mlkem.newEncapsulationKey768, dif_pos hlen]
  simp only [ht, hrho, h.matrix, ok_bind, pure_eq_ok, ← h.hash]
  rfl

omit [Sha3] in
lemma length_encodePublicKey1 (ek : EncapsulationKey768) : (encodePublicKey1 ek).length = Crypto.publicKey1Size := by
  rw [encodePublicKey1, List.length_append, ek.rho.2, ek.h.2]
  rfl

omit [Sha3] in
lemma take_encodePublicKey1 (ek : EncapsulationKey768) : (encodePublicKey1 ek).take 32 = ek.rho.1 :=
  List.take_left' ek.rho.2

omit [Sha3] in
lemma drop_encodePublicKey1 (ek : EncapsulationKey768) : (encodePublicKey1 ek).drop 32 = ek.h.1 :=
  List.drop_left' ek.rho.2

omit [Sha3] in
lemma length_encodePublicKey2 (ek : EncapsulationKey768) : ek.encodePublicKey2.length = Crypto.publicKey2Size :=
  length_encodeVec _

lemma Expanded.validatePublicKeyParts {dk : DecapsulationKey768} (h : Expanded reads dk) :
    validatePublicKeyParts reads (encodePublicKey1 dk.encapsulationKey) dk.encapsulationKey.encodePublicKey2 =
      .ok () := by
  have hbytes : dk.encapsulationKey.encodePublicKey2 ++ dk.encapsulationKey.rho.1 = dk.encapsulationKey.bytes := rfl
  have hhash : (sha3_256 dk.encapsulationKey.bytes).1 = dk.encapsulationKey.h.1 := by
    rw [← h.hash]
    rfl
  simp only [Mlkem.validatePublicKeyParts, length_encodePublicKey1, length_encodePublicKey2, take_encodePublicKey1,
    drop_encodePublicKey1, hbytes, hhash, h.newEncapsulationKey768, ne_eq, not_true_eq_false, if_false, ok_bind,
    pure_eq_ok]

/-! ### The noise is small -/

omit [Sha3] in
lemma isSmall_fieldSub {x y : UInt8} (hx : x.toNat ≤ 2) (hy : y.toNat ≤ 2) :
    (fieldSub (.ofByte x) (.ofByte y)).IsSmall := by
  have hword : (fieldSub (.ofByte x) (.ofByte y)).val.toNat = (x.toNat + 3329 - y.toNat) % 3329 :=
    toNat_fieldSub _ _
  rw [FieldElement.IsSmall, FieldElement.centered, hword]
  by_cases hle : y.toNat ≤ x.toNat
  · have hmod : (x.toNat + 3329 - y.toNat) % 3329 = x.toNat - y.toNat := by omega
    rw [hmod, if_neg (by omega)]
    omega
  · have hmod : (x.toNat + 3329 - y.toNat) % 3329 = x.toNat + 3329 - y.toNat := by omega
    rw [hmod, if_pos (by omega)]
    omega

omit [Sha3] in
lemma toNat_bits_le {x y : UInt8} (hx : x.toNat ≤ 1) (hy : y.toNat ≤ 1) : (x + y).toNat ≤ 2 := by
  rw [UInt8.toNat_add]
  exact (Nat.mod_le _ _).trans (by omega)

omit [Sha3] in
lemma isSmall_of_mem_cbdCoeffs {b : Bytes} : ∀ c ∈ cbdCoeffs b, c.IsSmall := by
  induction b with
  | nil =>
    intro c hc
    cases hc
  | cons b bs ih =>
    have hbit : ∀ x : UInt8, (x &&& 1).toNat ≤ 1 := by
      intro x
      rw [UInt8.toNat_and]
      exact Nat.and_le_right
    have htop : (b >>> 7).toNat ≤ 1 := by
      have hb := b.toNat_lt
      rw [UInt8.toNat_shiftRight]
      change b.toNat >>> 7 ≤ 1
      rw [Nat.shiftRight_eq_div_pow]
      omega
    intro c hc
    rw [cbdCoeffs, List.mem_cons, List.mem_cons] at hc
    obtain rfl | rfl | hmem := hc
    · exact isSmall_fieldSub (toNat_bits_le (hbit _) (hbit _)) (toNat_bits_le (hbit _) (hbit _))
    · exact isSmall_fieldSub (toNat_bits_le (hbit _) (hbit _)) (toNat_bits_le (hbit _) htop)
    · exact ih c hmem

lemma isSmall_sampleNoise (rnd : Bytes) : ∀ c ∈ (sampleNoise rnd).e2.coeffs, c.IsSmall :=
  isSmall_of_mem_cbdCoeffs

/-! ### The two phases -/

omit [Sha3] in
lemma encapsulate2_eq {state pk2 : Bytes} {r t : Vec} {e2 : Poly} {m : Message}
    (hfix : fixEncapsStateEndianness state = .ok (encodeEncapsState r e2 m))
    (hlen : pk2.length = Crypto.publicKey2Size) (ht : decodeVec pk2 = .ok t) :
    encapsulate2 state pk2 = .ok (ringCompressAndEncode4 (encryptV t r e2 m)) := by
  simp only [encapsulate2, hlen, hfix, decodeEncapsState_encodeEncapsState, ht, ne_eq, not_true_eq_false, if_false,
    ok_bind, pure_eq_ok]

lemma encapsulate1Internal_eq_ok {pk1 : Bytes} {m : Message} {result : EncapsulationResult}
    (h : encapsulate1Internal reads pk1 m = .ok result) :
    ∃ rnd, result.encapsState = encodeEncapsState (sampleNoise rnd).r (sampleNoise rnd).e2 m := by
  rw [encapsulate1Internal] at h
  by_cases hlen : pk1.length = Crypto.publicKey1Size
  · rw [if_neg (not_not.mpr hlen)] at h
    obtain ⟨a, -, hresult⟩ := bind_eq_ok h
    cases hresult
    exact ⟨_, rfl⟩
  · rw [if_pos hlen] at h
    cases h

/-- The repair of the byte order of a saved state. -/
theorem endianness_repair : (∀ (r : Vec) (m : Message) (e2 : Poly), (∀ c ∈ e2.coeffs, c.IsSmall) →
      fixEncapsStateEndianness (encodeEncapsState r e2 m) = .ok (encodeEncapsState r e2 m) ∧
        ((∃ c ∈ e2.coeffs, c.IsDecisive) →
          fixEncapsStateEndianness (swapState (encodeEncapsState r e2 m)) = .ok (encodeEncapsState r e2 m))) ∧
      (∀ state : Bytes, state.length = 2080 →
        ∃ fixed, fixEncapsStateEndianness state = .ok fixed ∧ fixEncapsStateEndianness fixed = .ok fixed ∧
          fixed.drop 2048 = state.drop 2048) ∧
      ∀ (reads : Nat) (pk1 : Bytes) (m : Message) (result : EncapsulationResult) (pk2 : Bytes) (t : Vec),
        encapsulate1Internal reads pk1 m = .ok result → pk2.length = 1152 → decodeVec pk2 = .ok t →
          ∃ ct2 r e2, decodeEncapsState result.encapsState = .ok (r, e2, m) ∧
            encapsulate2 result.encapsState pk2 = .ok ct2 ∧
            ((∃ c ∈ e2.coeffs, c.IsDecisive) → encapsulate2 (swapState result.encapsState) pk2 = .ok ct2) := by
  refine ⟨?_, fun state hlen => fix_idempotent hlen, ?_⟩
  · intro r m e2 hsmall
    exact ⟨fix_encodeEncapsState r e2 m hsmall, fix_swapState r e2 m hsmall⟩
  · intro reads pk1 m result pk2 t hresult hlen ht
    obtain ⟨rnd, hstate⟩ := encapsulate1Internal_eq_ok hresult
    have hsmall := isSmall_sampleNoise rnd
    rw [hstate]
    have hcorrect := encapsulate2_eq (fix_encodeEncapsState (sampleNoise rnd).r _ m hsmall) hlen ht
    refine ⟨_, _, _, decodeEncapsState_encodeEncapsState _ _ _, hcorrect, fun hdecisive => ?_⟩
    exact encapsulate2_eq (fix_swapState _ _ _ hsmall hdecisive) hlen ht

end Model

instance (c : FieldElement) : Decidable c.IsSmall := inferInstanceAs (Decidable (_ ∧ _))
instance (c : FieldElement) : Decidable c.IsDecisive := inferInstanceAs (Decidable (_ ∨ _))

def onesPoly : Poly := ⟨List.replicate n (.ofNat 1 (by decide)), List.length_replicate⟩

/-- A swapped state with coefficients one is repaired, a state of zeros is kept, and the two phases agree on
the swapped state for hash functions that return zeros. -/
theorem endianness_repair_ones :
    fixEncapsStateEndianness (swapState (encodeEncapsState (fun _ => Poly.zero) onesPoly ⟨zeros 32, rfl⟩)) =
        .ok (encodeEncapsState (fun _ => Poly.zero) onesPoly ⟨zeros 32, rfl⟩) ∧
      (∃ fixed, fixEncapsStateEndianness (zeros 2080) = .ok fixed) ∧
      ∃ result ct2, @encapsulate1Internal zeroSha3 16 (zeros 64) ⟨zeros 32, rfl⟩ = .ok result ∧
        encapsulate2 result.encapsState (encodeVec fun _ => Poly.zero) = .ok ct2 := by
  let _ : Sha3 := zeroSha3
  obtain ⟨hrepair, hstrings, hphases⟩ := endianness_repair
  have hsmall : ∀ c ∈ onesPoly.coeffs, c.IsSmall := by
    intro c hc
    rw [List.eq_of_mem_replicate hc]
    decide
  have hdecisive : ∃ c ∈ onesPoly.coeffs, c.IsDecisive :=
    ⟨_, List.mem_replicate.mpr ⟨by decide, rfl⟩, by decide⟩
  refine ⟨(hrepair _ _ onesPoly hsmall).2 hdecisive, ?_, ?_⟩
  · obtain ⟨fixed, hfixed, -⟩ := hstrings (zeros 2080) (length_zeros 2080)
    exact ⟨fixed, hfixed⟩
  · obtain ⟨a, ha⟩ := sampleMatrix_zeroSha3 ((zeros 64).take 32)
    have hresult : ∃ result, encapsulate1Internal 16 (zeros 64) ⟨zeros 32, rfl⟩ = .ok result := by
      simp only [encapsulate1Internal, length_zeros, ha, ok_bind, pure_eq_ok]
      exact ⟨_, rfl⟩
    obtain ⟨result, hresult⟩ := hresult
    obtain ⟨ct2, r, e2, -, hct2, -⟩ := hphases 16 (zeros 64) ⟨zeros 32, rfl⟩ result (encodeVec fun _ => Poly.zero) _
      hresult (length_encodeVec _) (decodeVec_encodeVec _)
    exact ⟨result, ct2, hresult, hct2⟩

section Refinement
variable [Sha3]

variable {dk : DecapsulationKey768} {reads : Nat}

lemma Expanded.decodeExpanded (h : Expanded reads dk) :
    decodeExpandedDecapsulationKey reads dk.encodeExpanded = .ok { dk with d := ⟨zeros 32, length_zeros 32⟩ } := by
  have hek : dk.encapsulationKey.bytes.length = encapsulationKeySize768 := by
    rw [EncapsulationKey768.bytes, List.length_append, length_encodeVec, dk.encapsulationKey.rho.2]
    rfl
  have hlen : dk.encodeExpanded.length = decapsulationKeySize := by
    simp only [DecapsulationKey768.encodeExpanded, List.length_append, length_encodeVec, hek, dk.h.2, dk.z.2]
    rfl
  have hs : decodeVec dk.encodeExpanded = .ok dk.s := by
    rw [DecapsulationKey768.encodeExpanded, List.append_assoc, List.append_assoc]
    exact decodeVec_encodeVec_append dk.s _
  have hmiddle : (dk.encodeExpanded.drop (k * encodingSize12)).take encapsulationKeySize768 =
      dk.encapsulationKey.bytes := by
    rw [DecapsulationKey768.encodeExpanded, List.append_assoc, List.append_assoc, List.drop_left' (length_encodeVec _)]
    exact List.take_left' hek
  have hrest : dk.encodeExpanded.drop (k * encodingSize12 + encapsulationKeySize768) = dk.h.1 ++ dk.z.1 := by
    rw [DecapsulationKey768.encodeExpanded, List.append_assoc]
    refine List.drop_left' ?_
    rw [List.length_append, length_encodeVec, hek]
  have hz : slice dk.encodeExpanded (k * encodingSize12 + encapsulationKeySize768 + 32) 32 hlen.ge = dk.z := by
    refine Subtype.ext ((slice_val _ _ _ _).trans ?_)
    rw [← List.drop_drop, hrest, List.drop_left' dk.h.2]
    exact List.take_of_length_le dk.z.2.le
  rw [decodeExpandedDecapsulationKey, dif_pos hlen]
  simp only [hs, hmiddle, h.newEncapsulationKey768, hrest, hz, ok_bind, List.take_left' dk.h.2]
  have hsame : dk.encapsulationKey.h.1 = dk.h.1 := rfl
  rw [if_neg (not_not.mpr hsame)]
  rfl

lemma Expanded.encapsulate (h : Expanded reads dk) (m : Message) :
    ∃ result ct2, encapsulate1Internal reads (encodePublicKey1 dk.encapsulationKey) m = .ok result ∧
      encapsulate2 result.encapsState dk.encapsulationKey.encodePublicKey2 = .ok ct2 ∧
      (result.sharedSecret, result.ciphertext1 ++ ct2) = dk.encapsulationKey.encapsulateInternal m := by
  have hmatrix : sampleMatrix reads dk.encapsulationKey.rho.1 = .ok dk.encryptionKey.a := h.matrix
  let noise := sampleNoise (secondHalf (sha3_512 (m.1 ++ dk.h.1))).1
  have hsecond : encapsulate2 (encodeEncapsState noise.r noise.e2 m) (encodeVec dk.encryptionKey.t) =
      .ok (ringCompressAndEncode4 (encryptV dk.encryptionKey.t noise.r noise.e2 m)) :=
    encapsulate2_eq (fix_encodeEncapsState _ _ m (isSmall_sampleNoise _)) (length_encodeVec _) (decodeVec_encodeVec _)
  refine ⟨⟨encodeU (encryptU dk.encryptionKey.a noise), encodeEncapsState noise.r noise.e2 m,
    (firstHalf (sha3_512 (m.1 ++ dk.h.1))).1⟩, _, ?_, hsecond, rfl⟩
  simp only [encapsulate1Internal, length_encodePublicKey1, take_encodePublicKey1, drop_encodePublicKey1, hmatrix,
    ne_eq, not_true_eq_false, if_false, ok_bind, pure_eq_ok]
  rfl

lemma Expanded.decapsulate (h : Expanded reads dk) {ct1 ct2 : Bytes} (h1 : ct1.length = Crypto.ciphertext1Size)
    (h2 : ct2.length = Crypto.ciphertext2Size) :
    decapsulateCompressedKey reads dk.encodeExpanded ct1 ct2 = dk.decapsulate (ct1 ++ ct2) := by
  have hlen : dk.encodeExpanded.length = decapsulationKeySize := by
    by_contra hno
    have hparsed := h.decodeExpanded
    rw [decodeExpandedDecapsulationKey, dif_neg hno] at hparsed
    cases hparsed
  simp only [decapsulateCompressedKey, hlen, h1, h2, h.decodeExpanded, ne_eq, not_true_eq_false, if_false, ok_bind]
  rfl

/-- The incremental functions give what the standard ones give, on every seed whose key generation ends. -/
theorem incremental_refines_standard (reads : Nat) (seed : Bytes) (dk : DecapsulationKey768)
    (hdk : newDecapsulationKey768 reads seed = .ok dk) (m : Message) :
    ∃ key, generateIncrementalKey reads seed = .ok key ∧
      newEncapsulationKey768 reads (key.pk2 ++ key.pk1.take 32) = .ok dk.encapsulationKey ∧
      key.pk1.drop 32 = dk.h.1 ∧ validatePublicKeyParts reads key.pk1 key.pk2 = .ok () ∧
      (∃ result ct2, encapsulate1Internal reads key.pk1 m = .ok result ∧
        encapsulate2 result.encapsState key.pk2 = .ok ct2 ∧
        (result.sharedSecret, result.ciphertext1 ++ ct2) = dk.encapsulationKey.encapsulateInternal m) ∧
      ∀ ct1 ct2 : Bytes, ct1.length = 960 → ct2.length = 128 →
        decapsulateCompressedKey reads key.dk ct1 ct2 = dk.decapsulate (ct1 ++ ct2) := by
  have hexpanded := newDecapsulationKey768_expanded hdk
  refine ⟨⟨encodePublicKey1 dk.encapsulationKey, dk.encapsulationKey.encodePublicKey2, dk.encodeExpanded⟩, ?_, ?_, ?_,
    hexpanded.validatePublicKeyParts, hexpanded.encapsulate m, ?_⟩
  · rw [generateIncrementalKey, hdk]
    rfl
  · rw [take_encodePublicKey1]
    exact hexpanded.newEncapsulationKey768
  · exact drop_encodePublicKey1 _
  · exact fun ct1 ct2 h1 h2 => hexpanded.decapsulate h1 h2

end Refinement

/-- The seed of zeros, with hash functions that return zeros. -/
theorem incremental_refines_standard_zeros : ∃ key, @generateIncrementalKey zeroSha3 16 (zeros 64) = .ok key ∧
      @validatePublicKeyParts zeroSha3 16 key.pk1 key.pk2 = .ok () := by
  let _ : Sha3 := zeroSha3
  obtain ⟨dk, hdk⟩ := newDecapsulationKey768_zeroSha3
  obtain ⟨key, hkey, -, -, hvalid, -⟩ :=
    incremental_refines_standard 16 (zeros 64) dk hdk ⟨zeros 32, length_zeros 32⟩
  exact ⟨key, hkey, hvalid⟩

end LibSignal.Mlkem
