import Mathlib

/-!
# Byte strings

Little-endian and big-endian encodings of numbers in a fixed number of bytes (`leBytes`, `beBytes`, read
back by `ofLe` and `ofBe`), and the bytewise exclusive or `xorBytes`, which undoes itself.
-/

namespace LibSignal.Lib

def leBytes : Nat → Nat → List UInt8
  | 0, _ => []
  | n + 1, v => v.toUInt8 :: leBytes n (v / 256)

def ofLe : List UInt8 → Nat
  | [] => 0
  | b :: bs => b.toNat + 256 * ofLe bs

def beBytes (n v : Nat) : List UInt8 := (leBytes n v).reverse

def ofBe (bs : List UInt8) : Nat := ofLe bs.reverse

@[simp] lemma length_leBytes (n v : Nat) : (leBytes n v).length = n := by
  induction n generalizing v with
  | zero => rfl
  | succ n ih => exact congrArg Nat.succ (ih _)

lemma ofLe_append (a b : List UInt8) : ofLe (a ++ b) = ofLe a + 256 ^ a.length * ofLe b := by
  induction a with
  | nil => simp [ofLe]
  | cons x a ih =>
    rw [List.cons_append, ofLe, ofLe, ih, List.length_cons, pow_succ]
    ring

lemma ofLe_lt (b : List UInt8) : ofLe b < 256 ^ b.length := by
  induction b with
  | nil => exact Nat.one_pos
  | cons x b ih =>
    have hx : x.toNat < 256 := x.toNat_lt
    rw [ofLe, List.length_cons, pow_succ]
    omega

variable {n v : Nat}

lemma ofLe_leBytes (h : v < 256 ^ n) : ofLe (leBytes n v) = v := by
  induction n generalizing v with
  | zero =>
    rw [pow_zero] at h
    exact (Nat.lt_one_iff.mp h).symm
  | succ n ih =>
    have hdiv : v / 256 < 256 ^ n := Nat.div_lt_of_lt_mul (by rw [pow_succ'] at h; exact h)
    rw [leBytes, ofLe, ih hdiv, Nat.toUInt8_eq, UInt8.toNat_ofNat']
    exact Nat.mod_add_div v 256

lemma getD_leBytes {i : Nat} (h : i < n) : (leBytes n v).getD i 0 = (v / 256 ^ i).toUInt8 := by
  induction n generalizing i v with
  | zero => exact absurd h (Nat.not_lt_zero i)
  | succ n ih =>
    cases i with
    | zero => rw [leBytes, List.getD_cons_zero, pow_zero, Nat.div_one]
    | succ i =>
      rw [leBytes, List.getD_cons_succ, ih (Nat.lt_of_succ_lt_succ h), Nat.div_div_eq_div_mul, pow_succ']

lemma ofBe_beBytes (h : v < 256 ^ n) : ofBe (beBytes n v) = v := by
  rw [ofBe, beBytes, List.reverse_reverse]
  exact ofLe_leBytes h

def xorBytes (a b : List UInt8) : List UInt8 := List.zipWith (· ^^^ ·) a b

@[simp] lemma length_xorBytes (a b : List UInt8) :
    (xorBytes a b).length = min a.length b.length := List.length_zipWith ..

lemma xorBytes_comm (a b : List UInt8) : xorBytes a b = xorBytes b a :=
  List.zipWith_comm_of_comm UInt8.xor_comm

lemma xorBytes_xorBytes {a b : List UInt8} (h : a.length ≤ b.length) : xorBytes (xorBytes a b) b = a := by
  induction a generalizing b with
  | nil => rfl
  | cons x a ih =>
    cases b with
    | nil => exact absurd h (Nat.not_succ_le_zero _)
    | cons y b =>
      have htail : xorBytes (xorBytes a b) b = a := ih (Nat.le_of_succ_le_succ h)
      have hhead : x ^^^ y ^^^ y = x := by rw [UInt8.xor_assoc, UInt8.xor_self, UInt8.xor_zero]
      change (x ^^^ y ^^^ y) :: xorBytes (xorBytes a b) b = x :: a
      rw [hhead, htail]

end LibSignal.Lib
