import LibSignal.Mlkem.Ntt

/-!
# Byte codecs of ML-KEM

`decode12_encode12` and `encode12_decode12`: the encoding with twelve bits and its decoder with the modulus
check are inverse, so that exactly the encodings are accepted.
-/

namespace LibSignal.Mlkem
open Chunked (Bytes be16 ofBe16)

/-! ## Twelve bits -/

lemma toNat_or_shiftLeft12 {a b : UInt32} (ha : a.toNat < 2 ^ 12) (hb : b.toNat < 2 ^ 12) :
    (a ||| b <<< 12).toNat = a.toNat + 4096 * b.toNat := by
  have hshift : (b <<< 12).toNat = b.toNat <<< 12 := by
    rw [UInt32.toNat_shiftLeft]
    change b.toNat <<< 12 % 2 ^ 32 = _
    rw [Nat.shiftLeft_eq]
    omega
  rw [UInt32.toNat_or, hshift, Nat.or_comm, ← Nat.shiftLeft_add_eq_or_of_lt ha, Nat.shiftLeft_eq]
  omega

lemma toNat_join24 (b0 b1 b2 : UInt8) : (b0.toUInt32 ||| b1.toUInt32 <<< 8 ||| b2.toUInt32 <<< 16).toNat =
      b0.toNat + 256 * b1.toNat + 65536 * b2.toNat := by
  have h0 := b0.toNat_lt
  have h1 := b1.toNat_lt
  have h2 := b2.toNat_lt
  have hshift1 : (b1.toUInt32 <<< 8).toNat = b1.toNat <<< 8 := by
    rw [UInt32.toNat_shiftLeft, UInt8.toNat_toUInt32]
    change b1.toNat <<< 8 % 2 ^ 32 = _
    rw [Nat.shiftLeft_eq]
    omega
  have hshift2 : (b2.toUInt32 <<< 16).toNat = b2.toNat <<< 16 := by
    rw [UInt32.toNat_shiftLeft, UInt8.toNat_toUInt32]
    change b2.toNat <<< 16 % 2 ^ 32 = _
    rw [Nat.shiftLeft_eq]
    omega
  have hlow : b0.toNat ||| b1.toNat <<< 8 = b0.toNat + 256 * b1.toNat := by
    rw [Nat.or_comm, ← Nat.shiftLeft_add_eq_or_of_lt h0, Nat.shiftLeft_eq]
    omega
  have hlt : b0.toNat + 256 * b1.toNat < 2 ^ 16 := by omega
  rw [UInt32.toNat_or, UInt32.toNat_or, hshift1, hshift2, UInt8.toNat_toUInt32, hlow, Nat.or_comm,
    ← Nat.shiftLeft_add_eq_or_of_lt hlt, Nat.shiftLeft_eq]
  omega

lemma toNat_split24 {x : UInt32} (h : x.toNat < 2 ^ 24) :
    x.toUInt8.toNat = x.toNat % 256 ∧ (x >>> 8).toUInt8.toNat = x.toNat / 256 % 256 ∧
      (x >>> 16).toUInt8.toNat = x.toNat / 65536 := by
  refine ⟨UInt32.toNat_toUInt8 x, ?_, ?_⟩
  · rw [UInt32.toNat_toUInt8, UInt32.toNat_shiftRight]
    change x.toNat >>> 8 % 2 ^ 8 = _
    rw [Nat.shiftRight_eq_div_pow]
  · rw [UInt32.toNat_toUInt8, UInt32.toNat_shiftRight]
    change x.toNat >>> 16 % 2 ^ 8 = _
    rw [Nat.shiftRight_eq_div_pow]
    omega

lemma toNat_halves12 {d : UInt32} (h : d.toNat < 2 ^ 24) :
    (d &&& 0xFFF).toUInt16.toNat = d.toNat % 4096 ∧ (d >>> 12).toUInt16.toNat = d.toNat / 4096 := by
  refine ⟨?_, ?_⟩
  · have hmask : (d &&& 0xFFF).toNat = d.toNat % 2 ^ 12 := by
      rw [UInt32.toNat_and]
      exact Nat.and_two_pow_sub_one_eq_mod d.toNat 12
    rw [UInt32.toNat_toUInt16, hmask]
    omega
  · rw [UInt32.toNat_toUInt16, UInt32.toNat_shiftRight]
    change d.toNat >>> 12 % 2 ^ 16 = _
    rw [Nat.shiftRight_eq_div_pow]
    omega

lemma toNat_pack12 (a b : FieldElement) :
    (a.val.toUInt32 ||| b.val.toUInt32 <<< 12).toNat = a.val.toNat + 4096 * b.val.toNat := by
  have ha := a.toNat_lt
  have hb := b.toNat_lt
  rw [toNat_or_shiftLeft12]
  · rw [UInt16.toNat_toUInt32, UInt16.toNat_toUInt32]
  · rw [UInt16.toNat_toUInt32]
    omega
  · rw [UInt16.toNat_toUInt32]
    omega

lemma fieldCheckReduced_eq_some {x : UInt16} {a : FieldElement} : fieldCheckReduced x = some a ↔ x = a.val := by
  rw [fieldCheckReduced]
  refine ⟨fun h => ?_, fun h => ?_⟩
  · split at h
    · cases h
      rfl
    · cases h
  · subst h
    rw [dif_pos a.val_lt]

variable {b : Bytes} {blocks : Nat} {f : List FieldElement}

lemma decode12_encode12 (h : f.length = blocks * 2) : decode12 (encode12 f) = some f := by
  induction blocks generalizing f with
  | zero =>
    rw [List.eq_nil_of_length_eq_zero (h.trans (Nat.zero_mul _))]
    rfl
  | succ blocks ih =>
    obtain ⟨a, b, f, rfl, hf⟩ := Lib.exists_pair h
    have ha := a.toNat_lt
    have hb := b.toNat_lt
    have hpack := toNat_pack12 a b
    have hsmall : (a.val.toUInt32 ||| b.val.toUInt32 <<< 12).toNat < 2 ^ 24 := by omega
    obtain ⟨h0, h1, h2⟩ := toNat_split24 hsmall
    simp only [encode12, decode12]
    generalize a.val.toUInt32 ||| b.val.toUInt32 <<< 12 = x at *
    have hjoin : x.toUInt8.toUInt32 ||| (x >>> 8).toUInt8.toUInt32 <<< 8 |||
        (x >>> 16).toUInt8.toUInt32 <<< 16 = x := by
      refine UInt32.toNat_inj.mp ?_
      rw [toNat_join24, h0, h1, h2]
      omega
    obtain ⟨hlow, hhigh⟩ := toNat_halves12 hsmall
    have hlow' : (x &&& 0xFFF).toUInt16 = a.val := UInt16.toNat_inj.mp (by rw [hlow, hpack]; omega)
    have hhigh' : (x >>> 12).toUInt16 = b.val := UInt16.toNat_inj.mp (by rw [hhigh, hpack]; omega)
    rw [hjoin, fieldCheckReduced_eq_some.mpr hlow', fieldCheckReduced_eq_some.mpr hhigh', ih hf]
    rfl

lemma exists_triple {α : Type*} {f : List α} (h : f.length = (blocks + 1) * 3) :
    ∃ a b c rest, f = a :: b :: c :: rest ∧ rest.length = blocks * 3 := by
  match f with
  | [] => simp at h
  | [_] =>
    simp only [List.length_cons, List.length_nil] at h
    omega
  | [_, _] =>
    simp only [List.length_cons, List.length_nil] at h
    omega
  | a :: b :: c :: rest =>
    refine ⟨a, b, c, rest, rfl, ?_⟩
    simp only [List.length_cons] at h
    omega

lemma encode12_decode12 (hlen : b.length = blocks * 3) (h : decode12 b = some f) : encode12 f = b := by
  induction blocks generalizing b f with
  | zero =>
    rw [List.eq_nil_of_length_eq_zero (hlen.trans (Nat.zero_mul _))] at h ⊢
    cases h
    rfl
  | succ blocks ih =>
    obtain ⟨b0, b1, b2, b, rfl, hb⟩ := exists_triple hlen
    simp only [decode12, Option.bind_eq_bind, Option.bind_eq_some_iff, Option.pure_def, Option.some.injEq] at h
    obtain ⟨f0, h0, f1, h1, rest, hrest, rfl⟩ := h
    have hb0 := b0.toNat_lt
    have hb1 := b1.toNat_lt
    have hb2 := b2.toNat_lt
    have hjoin := toNat_join24 b0 b1 b2
    have hsmall : (b0.toUInt32 ||| b1.toUInt32 <<< 8 ||| b2.toUInt32 <<< 16).toNat < 2 ^ 24 := by omega
    obtain ⟨hlow, hhigh⟩ := toNat_halves12 hsmall
    rw [fieldCheckReduced_eq_some.mp h0] at hlow
    rw [fieldCheckReduced_eq_some.mp h1] at hhigh
    have hpack := toNat_pack12 f0 f1
    have hsame : (f0.val.toUInt32 ||| f1.val.toUInt32 <<< 12).toNat < 2 ^ 24 := by omega
    obtain ⟨hs0, hs1, hs2⟩ := toNat_split24 hsame
    rw [encode12, ih hb hrest]
    congr 1
    · exact UInt8.toNat_inj.mp (by rw [hs0]; omega)
    · congr 1
      · exact UInt8.toNat_inj.mp (by rw [hs1]; omega)
      · congr 1
        exact UInt8.toNat_inj.mp (by rw [hs2]; omega)

lemma length_encode12 (h : f.length = blocks * 2) : (encode12 f).length = blocks * 3 := by
  induction blocks generalizing f with
  | zero =>
    rw [List.eq_nil_of_length_eq_zero (h.trans (Nat.zero_mul _))]
    rfl
  | succ blocks ih =>
    obtain ⟨a, b, f, rfl, hf⟩ := Lib.exists_pair h
    simp only [encode12, List.length_cons, ih hf]
    omega

lemma length_polyByteEncode (f : Poly) : (polyByteEncode f).length = encodingSize12 :=
  length_encode12 (show f.coeffs.length = 128 * 2 from f.length_coeffs)

lemma polyByteDecode_eq_ok {f : Poly} : polyByteDecode b = .ok f ↔ b = polyByteEncode f := by
  refine ⟨fun h => ?_, fun h => ?_⟩
  · unfold polyByteDecode at h
    split at h
    · cases h
    · rename_i hlen
      split at h
      · cases h
      · rename_i coeffs hdecoded
        cases h
        have hsize : b.length = 128 * 3 := not_not.mp hlen
        exact (encode12_decode12 hsize hdecoded).symm
  · subst h
    have hdecoded := decode12_encode12 (show f.coeffs.length = 128 * 2 from f.length_coeffs)
    unfold polyByteDecode
    rw [dif_neg (not_not.mpr (length_polyByteEncode f))]
    split
    · rename_i hnone
      exact absurd (hdecoded.symm.trans hnone) (by simp)
    · rename_i coeffs hsome
      have hcoeffs : f.coeffs = coeffs := Option.some.inj (hdecoded.symm.trans hsome)
      exact congrArg Except.ok (Poly.ext hcoeffs.symm)

/-! ## The encapsulation state -/

def FieldElement.centered (c : FieldElement) : Int :=
  if c.val.toNat > 1664 then (c.val.toNat : Int) - 3329 else c.val.toNat

def toBalanced (c : FieldElement) : Int16 :=
  if c.val.toNat > (q - 1) / 2 then c.val.toInt16 - 3329 else c.val.toInt16

def balancedRemainder (v : Int16) : Int32 :=
  let r := v.toInt32 % 3329
  if r < 0 then r + 3329 else r

lemma toInt_toBalanced (c : FieldElement) : (toBalanced c).toInt = c.centered := by
  have hc := c.toNat_lt
  have hword : c.val.toInt16.toInt = c.val.toNat := by
    have hbmod : c.val.toInt16.toInt = (c.val.toNat : Int).bmod (2 ^ 16) :=
      BitVec.toInt_eq_toNat_bmod c.val.toBitVec
    rw [hbmod]
    exact Int.bmod_eq_of_le (by omega) (by omega)
  have hhalf : (q - 1) / 2 = 1664 := rfl
  rw [toBalanced, hhalf, FieldElement.centered]
  by_cases hlarge : c.val.toNat > 1664
  · rw [if_pos hlarge, if_pos hlarge, Int16.toInt_sub, hword]
    change ((c.val.toNat : Int) - 3329).bmod (2 ^ 16) = _
    exact Int.bmod_eq_of_le (by omega) (by omega)
  · rw [if_neg hlarge, if_neg hlarge, hword]

lemma toInt_balancedRemainder (v : Int16) : (balancedRemainder v).toInt = v.toInt % 3329 := by
  have hlow := v.le_toInt
  have hhigh := v.toInt_lt
  have hmod : (v.toInt32 % 3329).toInt = v.toInt.tmod 3329 := by
    rw [Int32.toInt_mod, Int16.toInt_toInt32]
    rfl
  have hsign : v.toInt32 % 3329 < 0 ↔ v.toInt.tmod 3329 < 0 := by
    rw [Int32.lt_iff_toInt_lt, hmod]
    rfl
  rw [balancedRemainder]
  have hcases : v.toInt.tmod 3329 = if 0 ≤ v.toInt then v.toInt % 3329 else -(-v.toInt % 3329) := by
    by_cases hpos : 0 ≤ v.toInt
    · rw [if_pos hpos, Int.tmod_eq_emod_of_nonneg hpos]
    · rw [if_neg hpos, ← Int.neg_neg v.toInt, Int.neg_tmod, Int.tmod_eq_emod_of_nonneg (by omega), Int.neg_neg]
  by_cases hneg : v.toInt.tmod 3329 < 0
  · rw [if_pos (hsign.mpr hneg), Int32.toInt_add, hmod]
    change (v.toInt.tmod 3329 + 3329).bmod (2 ^ 32) = _
    rw [Int.bmod_eq_of_le (by split at hcases <;> omega) (by split at hcases <;> omega)]
    split at hcases <;> omega
  · rw [if_neg (hsign.not.mpr hneg), hmod]
    split at hcases <;> omega

lemma toNat_balancedRemainder (v : Int16) :
    ((balancedRemainder v).toUInt32.toUInt16.toNat : Int) = v.toInt % 3329 := by
  have hint := toInt_balancedRemainder v
  have hbmod : (balancedRemainder v).toInt = ((balancedRemainder v).toUInt32.toNat : Int).bmod (2 ^ 32) :=
    BitVec.toInt_eq_toNat_bmod (balancedRemainder v).toUInt32.toBitVec
  have hlt := (balancedRemainder v).toUInt32.toNat_lt
  have hemod := @Int.bmod_emod ((balancedRemainder v).toUInt32.toNat : Int) (2 ^ 32)
  rw [← hbmod, hint] at hemod
  rw [UInt32.toNat_toUInt16]
  push_cast at hemod ⊢
  omega

def fromBalanced (v : Int16) : FieldElement :=
  ⟨(balancedRemainder v).toUInt32.toUInt16, by
    have hvalue := toNat_balancedRemainder v
    change _ < 3329
    omega⟩

lemma fromBalanced_toBalanced (c : FieldElement) : fromBalanced (toBalanced c) = c := by
  have hc := c.toNat_lt
  have hvalue := toNat_balancedRemainder (toBalanced c)
  rw [toInt_toBalanced, FieldElement.centered] at hvalue
  refine FieldElement.ext (UInt16.toNat_inj.mp ?_)
  change (balancedRemainder (toBalanced c)).toUInt32.toUInt16.toNat = _
  split at hvalue <;> omega

def rawPolyI16Size : Nat := n * 2
def encapsStateSize : Nat := k * rawPolyI16Size + rawPolyI16Size + 32

def toRawI16 : List FieldElement → Bytes
  | [] => []
  | c :: f => (be16 (toBalanced c).toUInt16).2 :: (be16 (toBalanced c).toUInt16).1 :: toRawI16 f

def fromRawI16 : Bytes → List FieldElement
  | b0 :: b1 :: b => fromBalanced (ofBe16 b1 b0).toInt16 :: fromRawI16 b
  | _ => []

lemma length_toRawI16 (f : List FieldElement) : (toRawI16 f).length = 2 * f.length := by
  induction f with
  | nil => rfl
  | cons c f ih =>
    rw [toRawI16, List.length_cons, List.length_cons, ih, List.length_cons]
    ring

lemma length_fromRawI16 (h : b.length = blocks * 2) : (fromRawI16 b).length = blocks := by
  induction blocks generalizing b with
  | zero =>
    rw [List.eq_nil_of_length_eq_zero (h.trans (Nat.zero_mul _))]
    rfl
  | succ blocks ih =>
    obtain ⟨b0, b1, b, rfl, hb⟩ := Lib.exists_pair h
    rw [fromRawI16, List.length_cons, ih hb]

lemma fromRawI16_toRawI16 (f : List FieldElement) : fromRawI16 (toRawI16 f) = f := by
  induction f with
  | nil => rfl
  | cons c f ih =>
    rw [toRawI16, fromRawI16, Chunked.ofBe16_be16, Int16.toInt16_toUInt16, fromBalanced_toBalanced, ih]

def polyToRawI16LE (f : Poly) : Bytes := toRawI16 f.coeffs

def polyFromRawI16LE (b : { b : Bytes // b.length = rawPolyI16Size }) : Poly :=
  ⟨fromRawI16 b.1, length_fromRawI16 b.2⟩

lemma length_polyToRawI16LE (f : Poly) : (polyToRawI16LE f).length = rawPolyI16Size := by
  rw [polyToRawI16LE, length_toRawI16, f.length_coeffs]
  rfl

lemma polyFromRawI16LE_polyToRawI16LE (f : Poly) :
    polyFromRawI16LE ⟨polyToRawI16LE f, length_polyToRawI16LE f⟩ = f :=
  Poly.ext (fromRawI16_toRawI16 f.coeffs)

def slice (b : Bytes) (off size : Nat) (h : off + size ≤ b.length) : { s : Bytes // s.length = size } :=
  ⟨(b.drop off).take size, by
    rw [List.length_take, List.length_drop]
    omega⟩

lemma slice_val (b : Bytes) (off size : Nat) (h : off + size ≤ b.length) :
    (slice b off size h).1 = (b.drop off).take size := rfl

lemma take_drop_flatten {size i : Nat} {pieces : List Bytes} (h : ∀ p ∈ pieces, p.length = size)
    (hi : i < pieces.length) (z : Bytes) : ((pieces.flatten ++ z).drop (i * size)).take size = pieces[i] := by
  induction pieces generalizing i with
  | nil => exact absurd hi (by simp)
  | cons p pieces ih =>
    have hp : p.length = size := h p (List.mem_cons_self ..)
    rw [List.flatten_cons, List.append_assoc]
    cases i with
    | zero => rw [Nat.zero_mul, List.drop_zero, ← hp, List.take_left, List.getElem_cons_zero]
    | succ i =>
      have hrest := ih (fun p' hp' => h p' (List.mem_cons_of_mem _ hp')) (Nat.lt_of_succ_lt_succ hi)
      rw [Nat.succ_mul, Nat.add_comm, ← List.drop_drop, ← hp, List.drop_left, hp, hrest, List.getElem_cons_succ]

abbrev Vec := Fin k → Poly

def encodeEncapsState (r : Vec) (e2 : Poly) (m : Message) : Bytes :=
  (List.finRange k).flatMap (fun i => polyToRawI16LE (r i)) ++ polyToRawI16LE e2 ++ m.1

lemma slice_bound (h : b.length = encapsStateSize) (i : Fin 4) :
    (i : Nat) * rawPolyI16Size + rawPolyI16Size ≤ b.length := by
  have hi := i.isLt
  rw [h, encapsStateSize, rawPolyI16Size]
  change (i : Nat) * 512 + 512 ≤ 2080
  omega

def decodeEncapsState (b : Bytes) : Except MlkemErr (Vec × Poly × Message) :=
  if h : b.length = encapsStateSize then
    .ok (fun i => polyFromRawI16LE (slice b (i * rawPolyI16Size) rawPolyI16Size (slice_bound h i.castSucc)),
      polyFromRawI16LE (slice b (k * rawPolyI16Size) rawPolyI16Size (slice_bound h 3)),
      slice b (k * rawPolyI16Size + rawPolyI16Size) 32 h.ge)
  else .error .invalidEncapsStateLength

def statePieces (r : Vec) (e2 : Poly) : List Bytes :=
  [polyToRawI16LE (r 0), polyToRawI16LE (r 1), polyToRawI16LE (r 2), polyToRawI16LE e2]

lemma encodeEncapsState_eq (r : Vec) (e2 : Poly) (m : Message) :
    encodeEncapsState r e2 m = (statePieces r e2).flatten ++ m.1 := by
  simp [encodeEncapsState, statePieces, List.finRange_succ]

lemma length_statePieces (r : Vec) (e2 : Poly) : ∀ p ∈ statePieces r e2, p.length = rawPolyI16Size := by
  intro p hp
  simp only [statePieces, List.mem_cons, List.not_mem_nil, or_false] at hp
  obtain rfl | rfl | rfl | rfl := hp <;> exact length_polyToRawI16LE _

lemma length_flatten_statePieces (r : Vec) (e2 : Poly) :
    (statePieces r e2).flatten.length = k * rawPolyI16Size + rawPolyI16Size := by
  simp only [statePieces, List.flatten_cons, List.flatten_nil, List.length_append, length_polyToRawI16LE,
    List.length_nil]
  rfl

lemma length_encodeEncapsState (r : Vec) (e2 : Poly) (m : Message) :
    (encodeEncapsState r e2 m).length = encapsStateSize := by
  rw [encodeEncapsState_eq, List.length_append, length_flatten_statePieces, m.2]
  rfl

lemma slice_statePieces (r : Vec) (e2 : Poly) (m : Message) {i : Nat} (hi : i < 4)
    (h : i * rawPolyI16Size + rawPolyI16Size ≤ (encodeEncapsState r e2 m).length) :
    (slice (encodeEncapsState r e2 m) (i * rawPolyI16Size) rawPolyI16Size h).1 =
      (statePieces r e2).get ⟨i, hi⟩ := by
  rw [slice_val, encodeEncapsState_eq]
  exact take_drop_flatten (length_statePieces r e2) hi m.1

lemma decodeEncapsState_encodeEncapsState (r : Vec) (e2 : Poly) (m : Message) :
    decodeEncapsState (encodeEncapsState r e2 m) = .ok (r, e2, m) := by
  have hread : ∀ (b : { b : Bytes // b.length = rawPolyI16Size }) (f : Poly), b.1 = polyToRawI16LE f →
      polyFromRawI16LE b = f := by
    rintro ⟨b, hb⟩ f rfl
    exact polyFromRawI16LE_polyToRawI16LE f
  rw [decodeEncapsState, dif_pos (length_encodeEncapsState r e2 m)]
  refine congrArg Except.ok (Prod.ext ?_ (Prod.ext ?_ ?_))
  · funext i
    refine hread _ _ ((slice_statePieces r e2 m (i.isLt.trans (by decide)) _).trans ?_)
    match i with
    | 0 => rfl
    | 1 => rfl
    | 2 => rfl
  · exact hread _ _ (slice_statePieces r e2 m (i := 3) (by decide) _)
  · refine Subtype.ext ?_
    change ((encodeEncapsState r e2 m).drop (k * rawPolyI16Size + rawPolyI16Size)).take 32 = m.1
    rw [encodeEncapsState_eq, ← length_flatten_statePieces r e2, List.drop_left]
    exact List.take_of_length_le m.2.le

/-- The twelve-bit codec is exact, the state is read back as it was written, and decoded coefficients are
reduced. -/
theorem polynomial_codecs_exact : (∀ f : Poly, polyByteDecode (polyByteEncode f) = .ok f) ∧
      (∀ b : Bytes, b.length = 384 → ((∃ f, polyByteDecode b = .ok f) ↔ ∃ f : Poly, b = polyByteEncode f)) ∧
      (∀ (r : Vec) (e2 : Poly) (m : Message), decodeEncapsState (encodeEncapsState r e2 m) = .ok (r, e2, m)) ∧
      (∀ (b : Bytes) (f : Poly), polyByteDecode b = .ok f → ∀ x ∈ f.coeffs, x.val.toNat < 3329) ∧
      ∀ b : Bytes, b.length = 2080 → ∃ r e2 m, decodeEncapsState b = .ok (r, e2, m) ∧
        (∀ i, ∀ x ∈ (r i).coeffs, x.val.toNat < 3329) ∧ ∀ x ∈ e2.coeffs, x.val.toNat < 3329 := by
  refine ⟨fun f => polyByteDecode_eq_ok.mpr rfl, fun b _ => ?_, decodeEncapsState_encodeEncapsState, ?_, ?_⟩
  · exact exists_congr fun f => polyByteDecode_eq_ok
  · exact fun b f _ x _ => x.val_lt
  · intro b hb
    refine ⟨_, _, _, dif_pos hb, ?_, ?_⟩
    · exact fun i x _ => x.val_lt
    · exact fun x _ => x.val_lt

/-- The encoding of the zero polynomial is accepted, and a state of zeros. -/
theorem polynomial_codecs_exact_zeros : (∃ f, polyByteDecode (polyByteEncode Poly.zero) = .ok f) ∧
      ∃ r e2 m, decodeEncapsState (Crypto.zeros 2080) = .ok (r, e2, m) := by
  obtain ⟨-, haccept, -, -, hstate⟩ := polynomial_codecs_exact
  refine ⟨(haccept _ (length_polyByteEncode Poly.zero)).mpr ⟨Poly.zero, rfl⟩, ?_⟩
  obtain ⟨r, e2, m, hdecoded, -⟩ := hstate (Crypto.zeros 2080) (Crypto.length_zeros 2080)
  exact ⟨r, e2, m, hdecoded⟩

end LibSignal.Mlkem
