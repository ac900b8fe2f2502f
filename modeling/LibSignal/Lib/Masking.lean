import LibSignal.Lib.ByteString

/-!
# Masking with a key stream

`maskFrom ks pos` adds to each byte of a text the byte of the key stream `ks` at its position, the text
starting at position `pos`.
-/

namespace LibSignal.Lib

def maskFrom (ks : Nat → UInt8) : Nat → List UInt8 → List UInt8
  | _, [] => []
  | pos, b :: bs => (b ^^^ ks pos) :: maskFrom ks (pos + 1) bs

variable {ks : Nat → UInt8}

@[simp] lemma length_maskFrom (pos : Nat) (bs : List UInt8) : (maskFrom ks pos bs).length = bs.length := by
  induction bs generalizing pos with
  | nil => rfl
  | cons b bs ih => exact congrArg Nat.succ (ih _)

lemma maskFrom_append (pos : Nat) (as bs : List UInt8) :
    maskFrom ks pos (as ++ bs) = maskFrom ks pos as ++ maskFrom ks (pos + as.length) bs := by
  induction as generalizing pos with
  | nil => rfl
  | cons a as ih =>
    rw [List.cons_append, maskFrom, ih, maskFrom, List.cons_append, List.length_cons, Nat.add_assoc,
      Nat.add_comm 1]

lemma maskFrom_maskFrom (pos : Nat) (bs : List UInt8) : maskFrom ks pos (maskFrom ks pos bs) = bs := by
  induction bs generalizing pos with
  | nil => rfl
  | cons b bs ih => rw [maskFrom, maskFrom, ih, UInt8.xor_assoc, UInt8.xor_self, UInt8.xor_zero]

lemma getD_maskFrom {pos j : Nat} {bs : List UInt8} (h : j < bs.length) :
    (maskFrom ks pos bs).getD j 0 = bs.getD j 0 ^^^ ks (pos + j) := by
  induction bs generalizing pos j with
  | nil => cases h
  | cons b bs ih =>
    cases j with
    | zero => rfl
    | succ j =>
      rw [maskFrom, List.getD_cons_succ, List.getD_cons_succ, ih (Nat.lt_of_succ_lt_succ h)]
      congr 2
      omega

lemma xorBytes_eq_maskFrom {pos : Nat} {bs w : List UInt8} (hlen : bs.length ≤ w.length)
    (h : ∀ i < bs.length, w.getD i 0 = ks (pos + i)) : xorBytes bs w = maskFrom ks pos bs := by
  induction bs generalizing pos w with
  | nil => rfl
  | cons b bs ih =>
    cases w with
    | nil => cases hlen
    | cons v w =>
      have hhead : v = ks pos := h 0 (Nat.zero_lt_succ _)
      have htail : xorBytes bs w = maskFrom ks (pos + 1) bs := by
        apply ih (Nat.le_of_succ_le_succ hlen)
        intro i hi
        rw [Nat.add_assoc, Nat.add_comm 1]
        exact h (i + 1) (Nat.succ_lt_succ hi)
      rw [maskFrom, ← htail, ← hhead]
      rfl

end LibSignal.Lib
