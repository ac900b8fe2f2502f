import LibSignal.Crypto.Primitives
import Mathlib.Data.ZMod.Basic

/-!
# The field of ML-KEM

Model of the field arithmetic of `internal/mlkem768incr/field.go` on machine words.
-/

namespace LibSignal.Mlkem
open Chunked (Bytes)

abbrev q : Nat := 3329

@[ext]
structure FieldElement where
  val : UInt16
  val_lt : val.toNat < q
deriving DecidableEq, Repr

def FieldElement.ofNat (n : Nat) (h : n < q) : FieldElement :=
  ⟨n.toUInt16, by
    change n % 2 ^ 16 < q
    omega⟩

def fieldCheckReduced (a : UInt16) : Option FieldElement := if h : a.toNat < q then some ⟨a, h⟩ else none

/-! ## Reduction -/

def fieldReduceOnce (a : UInt16) : UInt16 :=
  let x := a - 3329
  x + (x >>> 15) * 3329

def fieldReduce (a : UInt32) : UInt16 :=
  let quotient := ((a.toUInt64 * 5039) >>> 24).toUInt32
  fieldReduceOnce (a - quotient * 3329).toUInt16

lemma toNat_fieldReduceOnce {a : UInt16} (h : a.toNat < 2 * q) : (fieldReduceOnce a).toNat = a.toNat % q := by
  have hlt : a.toNat < 6658 := h
  have hx : (a - 3329).toNat = (62207 + a.toNat) % 65536 := UInt16.toNat_sub a 3329
  have htop : ((a - 3329) >>> 15).toNat = (62207 + a.toNat) % 65536 / 32768 := by
    rw [UInt16.toNat_shiftRight, hx]
    exact Nat.shiftRight_eq_div_pow _ 15
  have hsum : (fieldReduceOnce a).toNat =
      ((62207 + a.toNat) % 65536 + (62207 + a.toNat) % 65536 / 32768 * 3329 % 65536) % 65536 := by
    rw [fieldReduceOnce, UInt16.toNat_add, UInt16.toNat_mul, htop, hx]
    rfl
  rw [hsum]
  change _ = a.toNat % 3329
  by_cases hover : a.toNat < 3329
  · -- the subtraction underflows and the top bit is set
    have hwrap : (62207 + a.toNat) % 65536 = 62207 + a.toNat := Nat.mod_eq_of_lt (by omega)
    have hbit : (62207 + a.toNat) / 32768 = 1 := by omega
    rw [hwrap, hbit]
    omega
  · have hwrap : (62207 + a.toNat) % 65536 = a.toNat - 3329 := by omega
    have hbit : (a.toNat - 3329) / 32768 = 0 := by omega
    rw [hwrap, hbit]
    omega

lemma toNat_fieldReduce {a : UInt32} (h : a.toNat < 2 * q ^ 2) : (fieldReduce a).toNat = a.toNat % q := by
  have hlt : a.toNat < 22164482 := h
  have hquotient : ((a.toUInt64 * 5039) >>> 24).toUInt32.toNat = a.toNat * 5039 / 2 ^ 24 := by
    rw [UInt64.toNat_toUInt32, UInt64.toNat_shiftRight, UInt64.toNat_mul, UInt32.toNat_toUInt64]
    change (a.toNat * 5039 % 2 ^ 64) >>> 24 % 2 ^ 32 = _
    have hproduct : a.toNat * 5039 < 2 ^ 64 := by omega
    rw [Nat.mod_eq_of_lt hproduct, Nat.shiftRight_eq_div_pow]
    exact Nat.mod_eq_of_lt (by omega)
  have hrest : (a - ((a.toUInt64 * 5039) >>> 24).toUInt32 * 3329).toUInt16.toNat =
      a.toNat - a.toNat * 5039 / 2 ^ 24 * 3329 := by
    rw [UInt32.toNat_toUInt16, UInt32.toNat_sub, UInt32.toNat_mul, hquotient]
    change (2 ^ 32 - a.toNat * 5039 / 2 ^ 24 * 3329 % 2 ^ 32 + a.toNat) % 2 ^ 32 % 2 ^ 16 = _
    omega
  have hsmall : a.toNat - a.toNat * 5039 / 2 ^ 24 * 3329 < 2 * 3329 := by omega
  rw [fieldReduce, toNat_fieldReduceOnce (by rw [hrest]; exact hsmall), hrest]
  change (a.toNat - a.toNat * 5039 / 2 ^ 24 * 3329) % 3329 = a.toNat % 3329
  omega

lemma fieldReduceOnce_lt {a : UInt16} (h : a.toNat < 2 * q) : (fieldReduceOnce a).toNat < q := by
  rw [toNat_fieldReduceOnce h]
  exact Nat.mod_lt _ (by decide)

lemma fieldReduce_lt {a : UInt32} (h : a.toNat < 2 * q ^ 2) : (fieldReduce a).toNat < q := by
  rw [toNat_fieldReduce h]
  exact Nat.mod_lt _ (by decide)

/-! ## Operations

The words that are reduced are in the range of the reductions. -/

namespace FieldElement
variable (a b c d : FieldElement)

lemma toNat_lt : a.val.toNat < 3329 := a.val_lt

lemma toNat_add_words : (a.val + b.val).toNat = a.val.toNat + b.val.toNat := by
  rw [UInt16.toNat_add]
  have ha := a.toNat_lt
  have hb := b.toNat_lt
  omega

lemma toNat_sub_words : (a.val - b.val + 3329).toNat = a.val.toNat + 3329 - b.val.toNat := by
  have ha := a.toNat_lt
  have hb := b.toNat_lt
  rw [UInt16.toNat_add, UInt16.toNat_sub]
  change ((2 ^ 16 - b.val.toNat + a.val.toNat) % 2 ^ 16 + 3329) % 2 ^ 16 = _
  omega

lemma toNat_mul_words (x : UInt16) (hx : x.toNat < 2 * 3329) :
    (a.val.toUInt32 * x.toUInt32).toNat = a.val.toNat * x.toNat := by
  have hproduct : a.val.toNat * x.toNat ≤ 3328 * 6657 := Nat.mul_le_mul (by have := a.toNat_lt; omega) (by omega)
  rw [UInt32.toNat_mul, UInt16.toNat_toUInt32, UInt16.toNat_toUInt32]
  exact Nat.mod_eq_of_lt (hproduct.trans_lt (by norm_num))

lemma mul_le : a.val.toNat * b.val.toNat ≤ 3328 * 3328 :=
  Nat.mul_le_mul (by have := a.toNat_lt; omega) (by have := b.toNat_lt; omega)

lemma toNat_addMul_words : (a.val.toUInt32 * b.val.toUInt32 + c.val.toUInt32 * d.val.toUInt32).toNat =
      a.val.toNat * b.val.toNat + c.val.toNat * d.val.toNat := by
  have hab := a.mul_le b
  have hcd := c.mul_le d
  have hb := b.toNat_lt
  have hd := d.toNat_lt
  rw [UInt32.toNat_add, a.toNat_mul_words _ (by omega), c.toNat_mul_words _ (by omega)]
  exact Nat.mod_eq_of_lt (by omega)

lemma add_words_lt : (a.val + b.val).toNat < 2 * q := by
  have ha := a.toNat_lt
  have hb := b.toNat_lt
  rw [a.toNat_add_words b]
  change _ < 2 * 3329
  omega

lemma sub_words_lt : (a.val - b.val + 3329).toNat < 2 * q := by
  have ha := a.toNat_lt
  rw [a.toNat_sub_words b]
  change _ < 2 * 3329
  omega

lemma mul_words_lt {x : UInt16} (hx : x.toNat < 2 * q) : (a.val.toUInt32 * x.toUInt32).toNat < 2 * q ^ 2 := by
  have ha := a.toNat_lt
  have hx' : x.toNat < 2 * 3329 := hx
  rw [a.toNat_mul_words x hx]
  exact (Nat.mul_le_mul (show a.val.toNat ≤ 3328 by omega) (show x.toNat ≤ 6657 by omega)).trans_lt (by decide)

lemma addMul_words_lt :
    (a.val.toUInt32 * b.val.toUInt32 + c.val.toUInt32 * d.val.toUInt32).toNat < 2 * q ^ 2 := by
  rw [a.toNat_addMul_words b c d]
  exact (Nat.add_le_add (a.mul_le b) (c.mul_le d)).trans_lt (by decide)

lemma val_lt_twice : a.val.toNat < 2 * q := a.val_lt.trans (by decide)

end FieldElement

def fieldAdd (a b : FieldElement) : FieldElement :=
  ⟨fieldReduceOnce (a.val + b.val), fieldReduceOnce_lt (a.add_words_lt b)⟩

def fieldSub (a b : FieldElement) : FieldElement :=
  ⟨fieldReduceOnce (a.val - b.val + 3329), fieldReduceOnce_lt (a.sub_words_lt b)⟩

lemma toNat_fieldSub (a b : FieldElement) :
    (fieldSub a b).val.toNat = (a.val.toNat + 3329 - b.val.toNat) % 3329 := by
  change (fieldReduceOnce _).toNat = _
  rw [toNat_fieldReduceOnce (a.sub_words_lt b), a.toNat_sub_words]

def fieldMul (a b : FieldElement) : FieldElement :=
  ⟨fieldReduce (a.val.toUInt32 * b.val.toUInt32), fieldReduce_lt (a.mul_words_lt b.val_lt_twice)⟩

def fieldMulSub (a b c : FieldElement) : FieldElement :=
  ⟨fieldReduce (a.val.toUInt32 * (b.val - c.val + 3329).toUInt32),
    fieldReduce_lt (a.mul_words_lt (b.sub_words_lt c))⟩

def fieldAddMul (a b c d : FieldElement) : FieldElement :=
  ⟨fieldReduce (a.val.toUInt32 * b.val.toUInt32 + c.val.toUInt32 * d.val.toUInt32),
    fieldReduce_lt (a.addMul_words_lt b c d)⟩

namespace FieldElement

def toZ (a : FieldElement) : ZMod q := a.val.toNat

lemma toZ_injective : Function.Injective toZ := by
  intro a b h
  have hmod := (ZMod.natCast_eq_natCast_iff' _ _ _).mp h
  rw [Nat.mod_eq_of_lt a.val_lt, Nat.mod_eq_of_lt b.val_lt] at hmod
  exact FieldElement.ext (UInt16.toNat_inj.mp hmod)

lemma toZ_ofNat_val (z : ZMod q) : (FieldElement.ofNat z.val z.val_lt).toZ = z := by
  have hval : (FieldElement.ofNat z.val z.val_lt).val.toNat = z.val := by
    have hz : z.val < 3329 := z.val_lt
    change z.val % 2 ^ 16 = z.val
    omega
  rw [toZ, hval, ZMod.natCast_zmod_val]

lemma toZ_of_mod {a : FieldElement} {n : Nat} (h : a.val.toNat = n % q) : a.toZ = n := by
  rw [toZ, h, ZMod.natCast_mod]

variable (a b c d : FieldElement)

lemma cast_sub_words : ((a.val.toNat + 3329 - b.val.toNat : Nat) : ZMod q) = a.toZ - b.toZ := by
  have hb := b.toNat_lt
  rw [Nat.cast_sub (by omega), Nat.cast_add, toZ, toZ, show ((3329 : Nat) : ZMod q) = 0 from ZMod.natCast_self q,
    add_zero]

@[simp] lemma toZ_fieldAdd : (fieldAdd a b).toZ = a.toZ + b.toZ := by
  rw [toZ_of_mod (toNat_fieldReduceOnce (a.add_words_lt b)), a.toNat_add_words b, Nat.cast_add]
  rfl

@[simp] lemma toZ_fieldSub : (fieldSub a b).toZ = a.toZ - b.toZ := by
  rw [toZ_of_mod (toNat_fieldReduceOnce (a.sub_words_lt b)), a.toNat_sub_words b, cast_sub_words]

@[simp] lemma toZ_fieldMul : (fieldMul a b).toZ = a.toZ * b.toZ := by
  rw [toZ_of_mod (toNat_fieldReduce (a.mul_words_lt b.val_lt_twice)), a.toNat_mul_words _ b.val_lt_twice,
    Nat.cast_mul]
  rfl

@[simp] lemma toZ_fieldMulSub : (fieldMulSub a b c).toZ = a.toZ * (b.toZ - c.toZ) := by
  rw [toZ_of_mod (toNat_fieldReduce (a.mul_words_lt (b.sub_words_lt c))),
    a.toNat_mul_words _ (b.sub_words_lt c), Nat.cast_mul, b.toNat_sub_words c, cast_sub_words]
  rfl

@[simp] lemma toZ_fieldAddMul : (fieldAddMul a b c d).toZ = a.toZ * b.toZ + c.toZ * d.toZ := by
  rw [toZ_of_mod (toNat_fieldReduce (a.addMul_words_lt b c d)), a.toNat_addMul_words b c d, Nat.cast_add,
    Nat.cast_mul, Nat.cast_mul]
  rfl

end FieldElement

end LibSignal.Mlkem
