import LibSignal.Curve.Keys
import LibSignal.Lib.ByteString
import LibSignal.Lib.Pratt

/-!
# Arithmetic on the Edwards curve

The packages `edwards25519` and `edwards25519/field` as `curve/xeddsa.go` uses them.
-/

namespace LibSignal.Curve
open Chunked (Bytes)
open Crypto Lib

@[irreducible] def fieldModulus : Nat := 2 ^ 255 - 19

lemma evaluated_witnesses : LucasWitness 64 31757755568855353 10 [2, 2, 2, 3, 31, 107, 223, 4153, 430751] ∧
    LucasWitness 64 2773320623 5 [2, 2437, 569003] ∧ LucasWitness 64 72106336199 7 [2, 13, 2773320623] ∧
    LucasWitness 64 1919519569386763 2 [2, 3, 7, 19, 47, 47, 127, 8574133] ∧
    LucasWitness 128 75445702479781427272750846543864801 7
      [2, 2, 2, 2, 2, 3, 3, 5, 5, 75707, 72106336199, 1919519569386763] ∧
    LucasWitness 256 74058212732561358302231226437062788676166966415465897661863160754340907 2
      [2, 3, 353, 57467, 132049, 1923133, 31757755568855353, 75445702479781427272750846543864801] ∧
    LucasWitness 256 (2 ^ 255 - 19) 2
      [2, 2, 3, 65147, 74058212732561358302231226437062788676166966415465897661863160754340907] := by
  decide +kernel

lemma fieldModulus_prime : fieldModulus.Prime := by
  obtain ⟨h1, h2, h3, h4, h5, h6, h7⟩ := evaluated_witnesses
  have prime1 := prime_of_lucasWitness _ _ _ h1 (by norm_num)
  have prime2 := prime_of_lucasWitness _ _ _ h2 (by norm_num)
  have prime3 := prime_of_lucasWitness _ _ _ h3 (by
    simp only [List.forall_mem_cons, prime2]
    norm_num)
  have prime4 := prime_of_lucasWitness _ _ _ h4 (by norm_num)
  have prime5 := prime_of_lucasWitness _ _ _ h5 (by
    simp only [List.forall_mem_cons, prime3, prime4]
    norm_num)
  have prime6 := prime_of_lucasWitness _ _ _ h6 (by
    simp only [List.forall_mem_cons, prime1, prime5]
    norm_num)
  rw [fieldModulus]
  apply prime_of_lucasWitness _ _ _ h7
  simp only [List.forall_mem_cons, prime6]
  norm_num

instance : Fact fieldModulus.Prime := ⟨fieldModulus_prime⟩

lemma fieldModulus_lt : fieldModulus < 2 ^ 255 := by
  rw [fieldModulus]
  norm_num

abbrev FieldElement := ZMod fieldModulus

namespace FieldElement

/-- A field element of 32 bytes; the highest bit is ignored. -/
def setBytes (x : Bytes) : Option FieldElement :=
  if x.length = 32 then some ((ofLe x % 2 ^ 255 : Nat) : FieldElement) else none

def bytes (v : FieldElement) : Bytes := leBytes 32 v.val

@[simp] lemma length_bytes (v : FieldElement) : v.bytes.length = 32 := length_leBytes 32 _

lemma val_lt (v : FieldElement) : v.val < 2 ^ 255 := (ZMod.val_lt v).trans fieldModulus_lt

lemma setBytes_bytes (v : FieldElement) : setBytes v.bytes = some v := by
  have hval : v.val < 256 ^ 32 := v.val_lt.trans (by norm_num)
  rw [setBytes, if_pos v.length_bytes, bytes, ofLe_leBytes hval, Nat.mod_eq_of_lt v.val_lt,
    ZMod.natCast_zmod_val]

lemma last_bytes (v : FieldElement) : v.bytes.getD 31 0 < 0x80 := by
  have hdiv : v.val / 256 ^ 31 < 128 := Nat.div_lt_of_lt_mul (v.val_lt.trans_eq (by norm_num))
  rw [bytes, getD_leBytes (by norm_num), UInt8.lt_iff_toNat_lt, Nat.toUInt8_eq, UInt8.toNat_ofNat']
  exact (Nat.mod_le _ _).trans_lt hdiv

def isNegative (v : FieldElement) : Bool := v.val % 2 == 1

end FieldElement

@[irreducible] def groupOrder : Nat := 2 ^ 252 + 27742317777372353535851937790883648493

lemma groupOrder_lt : groupOrder < 2 ^ 253 := by
  rw [groupOrder]
  norm_num

lemma groupOrder_lt_fieldModulus : groupOrder < fieldModulus := by
  rw [groupOrder, fieldModulus]
  norm_num

instance : NeZero groupOrder := ⟨by rw [groupOrder]; norm_num⟩

abbrev Scalar := ZMod groupOrder

namespace Scalar

def setUniformBytes (x : Bytes) : Option Scalar :=
  if x.length = 64 then some (ofLe x : Scalar) else none

def bytes (s : Scalar) : Bytes := leBytes 32 s.val

@[simp] lemma length_bytes (s : Scalar) : s.bytes.length = 32 := length_leBytes 32 _

lemma val_lt (s : Scalar) : s.val < 2 ^ 253 := (ZMod.val_lt s).trans groupOrder_lt

lemma last_bytes (s : Scalar) : s.bytes.getD 31 0 < 0x20 := by
  have hdiv : s.val / 256 ^ 31 < 32 := Nat.div_lt_of_lt_mul (s.val_lt.trans_eq (by norm_num))
  rw [bytes, getD_leBytes (by norm_num), UInt8.lt_iff_toNat_lt, Nat.toUInt8_eq, UInt8.toNat_ofNat']
  exact (Nat.mod_le _ _).trans_lt hdiv

lemma ofLe_bytes (s : Scalar) : ofLe s.bytes = s.val :=
  ofLe_leBytes (s.val_lt.trans (by norm_num))

end Scalar

/-- The points of the curve (`edwards25519.Point`), by their affine coordinates; `none` is the error of
`SetBytes` for bytes that encode no point. -/
class Edwards25519 where
  Point : Type
  [group : AddCommGroup Point]
  generator : Point
  x : Point → FieldElement
  y : Point → FieldElement
  setBytes : Bytes → Option Point

namespace Edwards25519

variable [Edwards25519]

instance : AddCommGroup Point := Edwards25519.group

/-- The encoding of RFC 8032: the coordinate `y`, with the sign of `x` in the highest bit. -/
def bytes (P : Point) : Bytes :=
  let out := (y P).bytes
  out.set 31 (out.getD 31 0 ||| (if (x P).isNegative then 0x80 else 0))

@[simp] lemma length_bytes (P : Point) : (bytes P).length = 32 := by
  rw [bytes, List.length_set, FieldElement.length_bytes]

def scalarMult (s : Scalar) (P : Point) : Point := s.val • P

def scalarBaseMult (s : Scalar) : Point := scalarMult s generator

def varTimeDoubleScalarBaseMult (a : Scalar) (A : Point) (b : Scalar) : Point :=
  scalarMult a A + scalarBaseMult b

def montgomeryU (P : Point) : FieldElement := (1 + y P) * (1 - y P)⁻¹

/-- What the package promises: the base point has the documented order, the neutral element is the one
point with `y = 1`, and an encoded point is read back. -/
structure Correct : Prop where
  addOrderOf_generator : addOrderOf generator = groupOrder
  eq_zero_of_y : ∀ P : Point, y P = 1 → P = 0
  setBytes_bytes : ∀ P : Point, setBytes (bytes P) = some P

end Edwards25519

/-- X25519 of a clamped scalar and the base point is the Montgomery coordinate of that multiple. -/
def X25519.MultipliesBasepoint [X25519] [Edwards25519] : Prop :=
  ∀ p : PrivateKey, x25519 p.data basepoint =
    some (Edwards25519.montgomeryU (ofLe p.data • Edwards25519.generator)).bytes

end LibSignal.Curve
