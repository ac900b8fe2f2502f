import LibSignal.Curve.Edwards

/-!
# XEdDSA signatures

Model of `curve/xeddsa.go`.
-/

namespace LibSignal.Curve
open Chunked (Bytes)
open Crypto Lib Edwards25519

def scalarFromBytesModOrder (b : Bytes) : Except CurveErr Scalar :=
  if b.length ≠ 32 then .error (.scalarInput b.length)
  else
    let wide := b ++ zeros 32
    match Scalar.setUniformBytes wide with
    | some s => .ok s
    | none => .error .uniformBytes

def scalarFromHash (h : Bytes) : Except CurveErr Scalar :=
  if h.length ≠ 64 then .error (.hashInput h.length)
  else
    match Scalar.setUniformBytes h with
    | some s => .ok s
    | none => .error .uniformBytes

lemma ofLe_zeros (n : Nat) : ofLe (zeros n) = 0 := by
  induction n with
  | zero => rfl
  | succ n ih =>
    change (0 : UInt8).toNat + 256 * ofLe (zeros n) = 0
    rw [ih]
    rfl

lemma scalarFromBytesModOrder_eq {b : Bytes} (h : b.length = 32) :
    scalarFromBytesModOrder b = .ok (ofLe b : Scalar) := by
  have hwide : (b ++ zeros 32).length = 64 := by rw [List.length_append, h, length_zeros]
  have hvalue : ofLe (b ++ zeros 32) = ofLe b := by
    rw [ofLe_append, ofLe_zeros, mul_zero, add_zero]
  rw [scalarFromBytesModOrder, if_neg (not_not.mpr h)]
  dsimp only
  rw [Scalar.setUniformBytes, if_pos hwide, hvalue]

lemma scalarFromHash_eq {h : Bytes} (hlen : h.length = 64) : scalarFromHash h = .ok (ofLe h : Scalar) := by
  rw [scalarFromHash, if_neg (not_not.mpr hlen), Scalar.setUniformBytes, if_pos hlen]

def signatureLength : Nat := 64

def xeddsaHashPrefix : Bytes := 0xFE :: List.replicate 31 0xFF

def writePieces (h : Bytes) (message : List Bytes) : Bytes := message.foldl (· ++ ·) h

lemma writePieces_eq (h : Bytes) (message : List Bytes) : writePieces h message = h ++ message.flatten := by
  induction message generalizing h with
  | nil => exact (List.append_nil h).symm
  | cons piece message ih =>
    change writePieces (h ++ piece) message = _
    rw [ih, List.flatten_cons, List.append_assoc]

section
variable [Edwards25519]

def montgomeryToEdwards (u : Bytes) (signBit : UInt8) : Option Point :=
  match FieldElement.setBytes u with
  | none => none
  | some uElem =>
    let uMinus1 := uElem - 1
    let uPlus1 := uElem + 1
    if uPlus1 = 0 then none
    else
      let y := uMinus1 * uPlus1⁻¹
      let comp := FieldElement.bytes y
      Edwards25519.setBytes (comp.set 31 (comp.getD 31 0 ||| signBit <<< 7))

variable [Sha512]

def PrivateKey.signWith (p : PrivateKey) (random : Bytes) (message : List Bytes) :
    Except CurveErr Bytes := do
  let keyData := p.data
  let a ← scalarFromBytesModOrder keyData
  let edPub := scalarBaseMult a
  let edPubBytes := Edwards25519.bytes edPub
  let signBit := edPubBytes.getD 31 0 &&& 0x80
  let h1 := writePieces (xeddsaHashPrefix ++ keyData) message ++ random
  let r ← scalarFromHash (sha512 h1)
  let capR := scalarBaseMult r
  let capRBytes := Edwards25519.bytes capR
  let h2 := writePieces (capRBytes ++ edPubBytes) message
  let hScalar ← scalarFromHash (sha512 h2)
  let s := hScalar * a + r
  let sig := capRBytes ++ s.bytes
  -- the sign of the public key is carried in the top bit of `s`
  let sig := sig.set 63 (sig.getD 63 0 &&& 0x7F)
  return sig.set 63 (sig.getD 63 0 ||| signBit)

def PrivateKey.calculateSignature (p : PrivateKey) (rng : Reader) (message : List Bytes) :
    Except CurveErr Bytes := do
  let random ← readKeyBytes rng 64
  p.signWith random message

def PublicKey.verifySignature (p : PublicKey) (signature : Bytes) (message : List Bytes) : Bool :=
  if signature.length ≠ signatureLength then false
  else
    match montgomeryToEdwards p.data ((signature.getD 63 0 &&& 0x80) >>> 7) with
    | none => false
    | some edPub =>
      let capABytes := Edwards25519.bytes edPub
      let capR := signature.take 32
      let sBytes := signature.drop 32
      let sBytes := sBytes.set 31 (sBytes.getD 31 0 &&& 0x7F)
      if sBytes.getD 31 0 &&& 0xE0 ≠ 0 then false
      else
        match scalarFromBytesModOrder sBytes with
        | .error _ => false
        | .ok s =>
          let minusA := -edPub
          match scalarFromHash (sha512 (writePieces (capR ++ capABytes) message)) with
          | .error _ => false
          | .ok hScalar => Edwards25519.bytes (varTimeDoubleScalarBaseMult hScalar minusA s) == capR

/-! ## The bytes of a signature -/

section
omit [Edwards25519] [Sha512]

def carrySign (capR : Bytes) (s : Scalar) (signBit : UInt8) : Bytes :=
  capR ++ s.bytes.set 31 (s.bytes.getD 31 0 ||| signBit)

lemma evaluated_bits (b : UInt8) : (b &&& 0x80 = 0 ∨ b &&& 0x80 = 0x80) ∧
    (b < 0x20 → b &&& 0x7F = b ∧ b &&& 0xE0 = 0 ∧ (b ||| 0) &&& 0x7F = b ∧ (b ||| 0x80) &&& 0x7F = b) ∧
    (b < 0x80 → (b ||| 0) &&& 0x80 = 0 ∧ (b ||| 0x80) &&& 0x80 = 0x80) ∧
    (b &&& 248 = b → 8 ∣ b.toNat) ∧ (b &&& 127 ||| 64 = b → 64 ≤ b.toNat ∧ b.toNat < 128) := by
  revert b
  decide +kernel

lemma signBit_cases (b : UInt8) : b &&& 0x80 = 0 ∨ b &&& 0x80 = 0x80 := (evaluated_bits b).1

variable {b signBit : UInt8}

lemma and_low (h : b < 0x20) : b &&& 0x7F = b := ((evaluated_bits b).2.1 h).1

lemma and_high (h : b < 0x20) : b &&& 0xE0 = 0 := ((evaluated_bits b).2.1 h).2.1

lemma carried_low (h : b < 0x20) (hs : signBit = 0 ∨ signBit = 0x80) : (b ||| signBit) &&& 0x7F = b := by
  obtain ⟨_, _, hzero, hone⟩ := (evaluated_bits b).2.1 h
  rcases hs with rfl | rfl
  · exact hzero
  · exact hone

lemma carried_sign (h : b < 0x80) (hs : signBit = 0 ∨ signBit = 0x80) : (b ||| signBit) &&& 0x80 = signBit := by
  obtain ⟨hzero, hone⟩ := (evaluated_bits b).2.2.1 h
  rcases hs with rfl | rfl
  · exact hzero
  · exact hone

lemma carried_shift (hs : signBit = 0 ∨ signBit = 0x80) : signBit >>> 7 <<< 7 = signBit := by
  rcases hs with rfl | rfl
  · rfl
  · rfl

lemma carrySign_eq {capR : Bytes} (h : capR.length = 32) (s : Scalar) (signBit : UInt8) :
    let sig := capR ++ s.bytes
    let sig := sig.set 63 (sig.getD 63 0 &&& 0x7F)
    sig.set 63 (sig.getD 63 0 ||| signBit) = carrySign capR s signBit := by
  have hlen : 63 < (capR ++ s.bytes).length := by rw [List.length_append, h, s.length_bytes]; decide
  have hlast : (capR ++ s.bytes).getD 63 0 = s.bytes.getD 31 0 := by
    rw [List.getD_append_right _ _ _ _ (by rw [h]; decide), h]
  have hset : ∀ b, ((capR ++ s.bytes).set 63 b).getD 63 0 = b := by
    intro b
    rw [List.getD_eq_getElem?_getD, List.getElem?_set_self hlen, Option.getD_some]
  dsimp only
  rw [hset, List.set_set, hlast, and_low s.last_bytes, carrySign,
    List.set_append_right _ _ (by rw [h]; decide), h]

section Carried
variable {capR : Bytes} {s : Scalar} {signBit : UInt8} (h : capR.length = 32)

include h

lemma length_carrySign : (carrySign capR s signBit).length = signatureLength := by
  rw [carrySign, List.length_append, List.length_set, h, s.length_bytes]
  rfl

lemma take_carrySign : (carrySign capR s signBit).take 32 = capR := List.take_left' h

lemma drop_carrySign : (carrySign capR s signBit).drop 32 = s.bytes.set 31 (s.bytes.getD 31 0 ||| signBit) :=
  List.drop_left' h

lemma last_carrySign : (carrySign capR s signBit).getD 63 0 = s.bytes.getD 31 0 ||| signBit := by
  have hlen : 31 < s.bytes.length := by rw [s.length_bytes]; decide
  rw [carrySign, List.getD_append_right _ _ _ _ (by rw [h]; decide), h, List.getD_eq_getElem?_getD,
    List.getElem?_set_self hlen, Option.getD_some]

end Carried

lemma strip_sign {s : Scalar} (hs : signBit = 0 ∨ signBit = 0x80) :
    let sBytes := s.bytes.set 31 (s.bytes.getD 31 0 ||| signBit)
    sBytes.set 31 (sBytes.getD 31 0 &&& 0x7F) = s.bytes := by
  have hlen : 31 < s.bytes.length := by rw [s.length_bytes]; decide
  dsimp only
  rw [List.set_set, List.getD_eq_getElem?_getD, List.getElem?_set_self hlen, Option.getD_some,
    carried_low s.last_bytes hs, List.getD_eq_getElem _ _ hlen, List.set_getElem_self]

end

lemma signWith_eq (p : PrivateKey) (random : Bytes) (message : List Bytes) :
    let A := scalarBaseMult (ofLe p.data : Scalar)
    let r : Scalar := ofLe (sha512 (writePieces (xeddsaHashPrefix ++ p.data) message ++ random))
    let capR := Edwards25519.bytes (scalarBaseMult r)
    let h : Scalar := ofLe (sha512 (writePieces (capR ++ Edwards25519.bytes A) message))
    p.signWith random message =
      .ok (carrySign capR (h * (ofLe p.data : Scalar) + r) ((Edwards25519.bytes A).getD 31 0 &&& 0x80)) := by
  intro A r capR h
  rw [PrivateKey.signWith]
  dsimp only
  rw [scalarFromBytesModOrder_eq p.length_data, ok_bind, scalarFromHash_eq (sha512_length _), ok_bind,
    scalarFromHash_eq (sha512_length _), ok_bind]
  exact congrArg Except.ok (carrySign_eq (length_bytes _) _ _)

/-! ## Completeness -/

section
omit [Sha512]

lemma nsmul_generator (hc : Edwards25519.Correct) {m n : Nat} (h : (m : Scalar) = n) :
    m • (generator : Point) = n • generator := by
  rw [nsmul_eq_nsmul_iff_modEq, hc.addOrderOf_generator]
  exact (ZMod.natCast_eq_natCast_iff m n groupOrder).mp h

lemma scalarBaseMult_natCast (hc : Edwards25519.Correct) (n : Nat) :
    scalarBaseMult (n : Scalar) = n • generator :=
  nsmul_generator hc (ZMod.natCast_zmod_val (n : Scalar))

lemma double_sum (hc : Edwards25519.Correct) (a h r : Scalar) :
    varTimeDoubleScalarBaseMult h (-scalarBaseMult a) (h * a + r) = scalarBaseMult r := by
  have hs : ((h * a + r).val : Scalar) = (h.val * a.val + r.val : Nat) := by
    push_cast
    simp only [ZMod.natCast_zmod_val]
  have hbase : scalarBaseMult (h * a + r) = h.val • a.val • generator + r.val • generator := by
    rw [scalarBaseMult, scalarMult, nsmul_generator hc hs, add_nsmul, mul_nsmul']
  rw [varTimeDoubleScalarBaseMult, hbase, scalarMult, scalarBaseMult, scalarMult, smul_neg,
    neg_add_cancel_left, scalarBaseMult, scalarMult]

omit [Edwards25519] in
lemma PrivateKey.clamped_bytes (p : PrivateKey) :
    p.data.getD 0 0 &&& 248 = p.data.getD 0 0 ∧ p.data.getD 31 0 &&& 127 ||| 64 = p.data.getD 31 0 := by
  have h0 : 0 < p.data.length := by rw [p.length_data]; decide
  have h31 : 31 < p.data.length := by rw [p.length_data]; decide
  have hclamped := clamp_eq p.length_data
  rw [p.clamped] at hclamped
  have hfirst := congrArg (fun l => l.getD 0 0) hclamped
  have hlast := congrArg (fun l => l.getD 31 0) hclamped
  simp only [List.getD_eq_getElem?_getD, List.getElem?_set, List.length_set, h0, h31, if_true,
    Option.getD_some] at hfirst hlast
  simp only [List.getD_eq_getElem?_getD]
  exact ⟨by simpa using hfirst.symm, hlast.symm⟩

omit [Edwards25519] in
lemma PrivateKey.eight_dvd (p : PrivateKey) : 8 ∣ ofLe p.data := by
  have hlow : ∀ b : UInt8, b &&& 248 = b → 8 ∣ b.toNat := fun b => (evaluated_bits b).2.2.2.1
  have hfirst := hlow _ p.clamped_bytes.1
  have hlen := p.length_data
  cases hdata : p.data with
  | nil => exact dvd_zero 8
  | cons b rest =>
    rw [hdata, List.getD_cons_zero] at hfirst
    exact Nat.dvd_add hfirst (Dvd.dvd.mul_right (by decide) _)

omit [Edwards25519] in
lemma PrivateKey.scalar_bounds (p : PrivateKey) : 2 ^ 254 ≤ ofLe p.data ∧ ofLe p.data < 2 ^ 255 := by
  have hhigh : ∀ b : UInt8, b &&& 127 ||| 64 = b → 64 ≤ b.toNat ∧ b.toNat < 128 :=
    fun b => (evaluated_bits b).2.2.2.2
  obtain ⟨hge, hlt⟩ := hhigh _ p.clamped_bytes.2
  have hlen : p.data.length = 32 := p.length_data
  have hsplit : p.data = p.data.take 31 ++ [p.data.getD 31 0] := by
    conv_lhs => rw [← List.take_append_drop 31 p.data]
    rw [List.drop_eq_getElem_cons (by omega), List.drop_of_length_le (by omega),
      List.getD_eq_getElem _ _ (by omega)]
  have htake : (p.data.take 31).length = 31 := by rw [List.length_take, hlen]; rfl
  have hrest := ofLe_lt (p.data.take 31)
  rw [htake] at hrest
  rw [hsplit, ofLe_append, htake, ofLe, ofLe]
  generalize (p.data.getD 31 0).toNat = top at hge hlt
  generalize ofLe (p.data.take 31) = low at hrest
  norm_num at hrest ⊢
  omega

omit [Edwards25519] in
lemma PrivateKey.not_dvd (p : PrivateKey) : ¬ groupOrder ∣ ofLe p.data := by
  intro hdvd
  have hcoprime : Nat.Coprime groupOrder 8 := by rw [groupOrder]; norm_num
  obtain ⟨hge, hlt⟩ := p.scalar_bounds
  have hle : groupOrder * 8 ≤ ofLe p.data :=
    Nat.le_of_dvd (by omega) (hcoprime.mul_dvd_of_dvd_of_dvd hdvd p.eight_dvd)
  rw [groupOrder] at hle
  omega

lemma y_public_ne (hc : Edwards25519.Correct) (p : PrivateKey) : y (ofLe p.data • (generator : Point)) ≠ 1 := by
  intro hy
  have hzero := hc.eq_zero_of_y _ hy
  rw [← addOrderOf_dvd_iff_nsmul_eq_zero, hc.addOrderOf_generator] at hzero
  exact p.not_dvd hzero

omit [Edwards25519] in
lemma two_ne_zero_field : (2 : FieldElement) ≠ 0 := by
  have hlt : 2 < fieldModulus := by rw [fieldModulus]; norm_num
  intro h
  have hdvd : fieldModulus ∣ 2 := (ZMod.natCast_eq_zero_iff 2 fieldModulus).mp (by exact_mod_cast h)
  exact absurd (Nat.le_of_dvd (by decide) hdvd) (Nat.not_le.mpr hlt)

lemma montgomeryU_add_one {P : Point} (h : y P ≠ 1) : montgomeryU P + 1 = 2 * (1 - y P)⁻¹ := by
  have hne : 1 - y P ≠ 0 := sub_ne_zero.mpr (Ne.symm h)
  rw [montgomeryU]
  field_simp
  ring

lemma edwards_of_montgomeryU {P : Point} (h : y P ≠ 1) : (montgomeryU P - 1) * (montgomeryU P + 1)⁻¹ = y P := by
  have hne : 1 - y P ≠ 0 := sub_ne_zero.mpr (Ne.symm h)
  have htwo := two_ne_zero_field
  rw [montgomeryU_add_one h, montgomeryU]
  field_simp
  ring

lemma signBit_bytes (P : Point) :
    (Edwards25519.bytes P).getD 31 0 &&& 0x80 = if (x P).isNegative then 0x80 else 0 := by
  have hlen : 31 < (y P).bytes.length := by rw [FieldElement.length_bytes]; decide
  have hbit : (if (x P).isNegative then 0x80 else 0 : UInt8) = 0 ∨
      (if (x P).isNegative then 0x80 else 0 : UInt8) = 0x80 := by
    cases (x P).isNegative
    · exact Or.inl rfl
    · exact Or.inr rfl
  rw [Edwards25519.bytes, List.getD_eq_getElem?_getD, List.getElem?_set_self hlen, Option.getD_some]
  exact carried_sign (y P).last_bytes hbit

lemma montgomeryToEdwards_of (hc : Edwards25519.Correct) {P : Point} (h : y P ≠ 1) :
    montgomeryToEdwards (montgomeryU P).bytes (((Edwards25519.bytes P).getD 31 0 &&& 0x80) >>> 7) = some P := by
  have hne : 1 - y P ≠ 0 := sub_ne_zero.mpr (Ne.symm h)
  have hu : montgomeryU P + 1 ≠ 0 := by
    rw [montgomeryU_add_one h]
    exact mul_ne_zero two_ne_zero_field (inv_ne_zero hne)
  rw [montgomeryToEdwards, FieldElement.setBytes_bytes]
  dsimp only
  rw [if_neg hu, edwards_of_montgomeryU h, carried_shift (signBit_cases _), signBit_bytes]
  exact hc.setBytes_bytes P

end

lemma verifySignature_signWith (hc : Edwards25519.Correct) {p : PrivateKey} {pub : PublicKey}
    (hpub : pub.data = (montgomeryU (ofLe p.data • (generator : Point))).bytes)
    {random sig : Bytes} {message message' : List Bytes} (hmessage : message'.flatten = message.flatten)
    (hsig : p.signWith random message = .ok sig) : pub.verifySignature sig message' = true := by
  have hA := scalarBaseMult_natCast hc (ofLe p.data)
  have hpieces : ∀ h, writePieces h message' = writePieces h message := by
    intro h
    rw [writePieces_eq, writePieces_eq, hmessage]
  rw [signWith_eq] at hsig
  cases hsig
  generalize hr : (ofLe (sha512 (writePieces (xeddsaHashPrefix ++ p.data) message ++ random)) : Scalar) = r
  have hlenR := length_bytes (scalarBaseMult r)
  have hsign := signBit_cases ((Edwards25519.bytes (scalarBaseMult (ofLe p.data : Scalar))).getD 31 0)
  have hfree : ∀ s : Scalar, s.bytes.getD 31 0 < 0x80 := by
    intro s
    exact UInt8.lt_trans s.last_bytes (by decide)
  rw [PublicKey.verifySignature, if_neg (not_not.mpr (length_carrySign hlenR)), last_carrySign hlenR,
    carried_sign (hfree _) hsign, hpub, ← hA,
    montgomeryToEdwards_of hc (by rw [hA]; exact y_public_ne hc p)]
  dsimp only
  rw [drop_carrySign hlenR, strip_sign hsign, if_neg (not_not.mpr (and_high (Scalar.last_bytes _))),
    scalarFromBytesModOrder_eq (Scalar.length_bytes _), Scalar.ofLe_bytes, ZMod.natCast_zmod_val]
  dsimp only
  rw [scalarFromHash_eq (sha512_length _), take_carrySign hlenR, hpieces]
  dsimp only
  rw [double_sum hc]
  exact beq_self_eq_true _

lemma top_bits_signWith {p : PrivateKey} {random sig : Bytes} {message : List Bytes}
    (hsig : p.signWith random message = .ok sig) : sig.getD 63 0 &&& 0x7F &&& 0xE0 = 0 := by
  rw [signWith_eq] at hsig
  cases hsig
  rw [last_carrySign (length_bytes _), carried_low (Scalar.last_bytes _) (signBit_cases _)]
  exact and_high (Scalar.last_bytes _)

omit [Sha512] in
lemma publicKey_of_multiplies [X25519] (hx : X25519.MultipliesBasepoint) (p : PrivateKey) :
    ∃ pub, p.publicKey = .ok pub ∧ pub.data = (montgomeryU (ofLe p.data • (generator : Point))).bytes := by
  rw [PrivateKey.publicKey, pointOf]
  split
  · rename_i pub hpub
    split at hpub
    · rename_i out hout
      cases hpub
      refine ⟨_, rfl, ?_⟩
      exact Option.some.inj (hout.symm.trans (hx p))
    · cases hpub
  · rename_i hnone
    split at hnone
    · cases hnone
    · rename_i hout
      rw [hx p] at hout
      cases hout

/-- Completeness. The signature that a private key makes with any 64 random bytes verifies under its
public key, for every way of cutting the message into pieces on the two sides, and its scalar part always
passes the verifier's check of the top bits. -/
theorem signature_verifies [X25519] (hc : Edwards25519.Correct) (hx : X25519.MultipliesBasepoint)
    (p : PrivateKey) (rng : Reader) (random : Bytes) (hrandom : rng.read 64 = some random)
    (message message' : List Bytes) (hmessage : message'.flatten = message.flatten) :
    ∃ pub sig, p.publicKey = .ok pub ∧ p.calculateSignature rng message = .ok sig ∧
      pub.verifySignature sig message' = true ∧
      sig.length = signatureLength ∧ sig.getD 63 0 &&& 0x7F &&& 0xE0 = 0 := by
  obtain ⟨pub, hpub, hdata⟩ := publicKey_of_multiplies hx p
  have hsig := signWith_eq p random message
  have hcalc : p.calculateSignature rng message = p.signWith random message := by
    rw [PrivateKey.calculateSignature, readKeyBytes, hrandom, ok_bind]
  refine ⟨pub, _, hpub, hcalc.trans hsig, ?_, length_carrySign (length_bytes _), top_bits_signWith hsig⟩
  exact verifySignature_signWith hc hdata hmessage hsig

/-- The scheme as the other modules use it. The error branch is never taken (`signWith_eq`). -/
@[reducible] def xeddsa : XEdDSA where
  sign p random message :=
    match p.signWith random [message] with
    | .ok sig => sig
    | .error _ => zeros 64
  sign_length p random message := by
    rw [signWith_eq]
    exact length_carrySign (length_bytes _)
  verifySignature p signature message := p.verifySignature signature [message]

lemma calculateSignature_xeddsa (p : PrivateKey) (rng : Reader) (message : Bytes) :
    @LibSignal.Curve.calculateSignature xeddsa p rng message = p.calculateSignature rng [message] := by
  have hsign : ∀ random, Except.ok (@sign xeddsa p random message) = p.signWith random [message] := by
    intro random
    have hsig := signWith_eq p random [message]
    dsimp only [sign]
    rw [hsig]
  exact congrArg (readKeyBytes rng 64 >>= ·) (funext hsign)

lemma xeddsa_isComplete [X25519] (hc : Edwards25519.Correct) (hx : X25519.MultipliesBasepoint) :
    @XEdDSA.Complete _ xeddsa := by
  intro k random message hvalid hrandom
  obtain ⟨pub, hpub, hdata⟩ := publicKey_of_multiplies hx k.privateKey
  obtain rfl : k.publicKey = pub := Except.ok.inj (hvalid.symm.trans hpub)
  have hsig := signWith_eq k.privateKey random [message]
  have hverify := verifySignature_signWith hc hdata rfl hsig
  dsimp only [verifySignature, sign]
  rw [hsig]
  exact hverify

end

/-! ## A cyclic group

The scalars themselves, with the number of a point as its coordinate. -/

@[reducible] def cyclicPoints : Edwards25519 where
  Point := Scalar
  generator := 1
  x _ := 0
  y k := ((k.val + 1 : Nat) : FieldElement)
  setBytes b := some ((ofLe b - 1 : Nat) : Scalar)

lemma val_y_cyclic (k : Scalar) : ((k.val + 1 : Nat) : FieldElement).val = k.val + 1 :=
  ZMod.val_natCast_of_lt (Nat.lt_of_le_of_lt (ZMod.val_lt k) groupOrder_lt_fieldModulus)

lemma bytes_cyclic (k : Scalar) :
    @Edwards25519.bytes cyclicPoints k = ((k.val + 1 : Nat) : FieldElement).bytes := by
  have hlen : 31 < ((k.val + 1 : Nat) : FieldElement).bytes.length := by
    rw [FieldElement.length_bytes]
    decide
  have heven : FieldElement.isNegative 0 = false := by rw [FieldElement.isNegative, ZMod.val_zero]; rfl
  generalize hv : ((k.val + 1 : Nat) : FieldElement).bytes = v at hlen
  change List.set ((k.val + 1 : Nat) : FieldElement).bytes 31
    (((k.val + 1 : Nat) : FieldElement).bytes.getD 31 0 |||
      (if FieldElement.isNegative 0 then 0x80 else 0)) = v
  rw [hv, heven, if_neg Bool.false_ne_true, UInt8.or_zero, List.getD_eq_getElem _ _ hlen, List.set_getElem_self]

lemma cyclicPoints_correct : @Edwards25519.Correct cyclicPoints := by
  refine @Edwards25519.Correct.mk cyclicPoints (ZMod.addOrderOf_one groupOrder) ?_ ?_
  · intro k hy
    have hval := congrArg ZMod.val hy
    have hone : (1 : FieldElement).val = 1 := ZMod.val_one fieldModulus
    rw [hone] at hval
    change ((k.val + 1 : Nat) : FieldElement).val = 1 at hval
    rw [val_y_cyclic] at hval
    exact (ZMod.val_eq_zero k).mp (Nat.succ.inj hval)
  · intro k
    have hread : ofLe (@Edwards25519.bytes cyclicPoints k) = k.val + 1 := by
      have hlt := FieldElement.val_lt ((k.val + 1 : Nat) : FieldElement)
      rw [bytes_cyclic, FieldElement.bytes, ofLe_leBytes (hlt.trans (by norm_num)), val_y_cyclic]
    change some ((ofLe (@Edwards25519.bytes cyclicPoints k) - 1 : Nat) : Scalar) = some k
    rw [hread, Nat.add_sub_cancel, ZMod.natCast_zmod_val]

@[reducible] def cyclicX25519 : X25519 where
  x25519 scalar _ := some (@montgomeryU cyclicPoints (ofLe scalar • @generator cyclicPoints)).bytes
  x25519_length _ _ _ h := by
    cases h
    exact FieldElement.length_bytes _

/-- A message signed in two pieces and verified in one. -/
theorem signature_verifies_pieces :
    ∃ pub sig, @PrivateKey.publicKey cyclicX25519 (privateKeyFromBytes (zeros 32) rfl) = .ok pub ∧
      @PrivateKey.calculateSignature cyclicPoints zeroSha512 (privateKeyFromBytes (zeros 32) rfl) zeroReader
        [[1], [2, 3]] = .ok sig ∧
      @PublicKey.verifySignature cyclicPoints zeroSha512 pub sig [[1, 2, 3]] = true ∧
      sig.length = signatureLength ∧ sig.getD 63 0 &&& 0x7F &&& 0xE0 = 0 :=
  @signature_verifies cyclicPoints zeroSha512 cyclicX25519 cyclicPoints_correct (fun _ => rfl)
    (privateKeyFromBytes (zeros 32) rfl) zeroReader (zeros 64) rfl [[1], [2, 3]] [[1, 2, 3]] rfl

end LibSignal.Curve
