import Mathlib.Data.Nat.Log
import Mathlib.Tactic.Ring

/-!
# Decimal digits

`decimalFixed w n` is the lowest `w` decimal digits of a number, as ASCII bytes, the highest first;
`decimalPadded w n` is the number in as many digits as it needs but at least `w` (the verb `%0wd`).
-/

namespace LibSignal.Lib

def decimalFixed : Nat → Nat → List UInt8
  | 0, _ => []
  | w + 1, n => decimalFixed w (n / 10) ++ [(0x30 + n % 10).toUInt8]

def decimalWidth (n : Nat) : Nat := Nat.log 10 n + 1

def decimalPadded (w n : Nat) : List UInt8 := decimalFixed (max w (decimalWidth n)) n

@[simp] lemma length_decimalFixed (w n : Nat) : (decimalFixed w n).length = w := by
  induction w generalizing n with
  | zero => rfl
  | succ w ih => rw [decimalFixed, List.length_append, ih, List.length_singleton]

variable {k n w : Nat}

lemma toNat_digit (h : k < 10) : (0x30 + k).toUInt8.toNat = 0x30 + k := by
  change (0x30 + k) % 256 = 0x30 + k
  omega

lemma mem_decimalFixed {b : UInt8} (h : b ∈ decimalFixed w n) : 0x30 ≤ b.toNat ∧ b.toNat ≤ 0x39 := by
  induction w generalizing n with
  | zero => cases h
  | succ w ih =>
    rw [decimalFixed, List.mem_append, List.mem_singleton] at h
    rcases h with h | rfl
    · exact ih h
    · have hdigit := Nat.mod_lt n (by decide : 10 > 0)
      rw [toNat_digit hdigit]
      omega

lemma decimalFixed_injOn {m : Nat} (hm : m < 10 ^ w) (hn : n < 10 ^ w) (h : decimalFixed w m = decimalFixed w n) :
    m = n := by
  induction w generalizing m n with
  | zero => omega
  | succ w ih =>
    rw [decimalFixed, decimalFixed] at h
    obtain ⟨hhigh, hlow⟩ := List.append_inj h (by rw [length_decimalFixed, length_decimalFixed])
    have hm' := Nat.mod_lt m (by decide : 10 > 0)
    have hn' := Nat.mod_lt n (by decide : 10 > 0)
    have hlow := congrArg UInt8.toNat (List.singleton_inj.mp hlow)
    rw [toNat_digit hm', toNat_digit hn'] at hlow
    rw [pow_succ] at hm hn
    have hdiv := ih (Nat.div_lt_of_lt_mul (by omega)) (Nat.div_lt_of_lt_mul (by omega)) hhigh
    omega

lemma lt_pow_decimalWidth (n : Nat) : n < 10 ^ decimalWidth n := Nat.lt_pow_succ_log_self (by decide) n

lemma decimalWidth_eq (hlo : 10 ^ k ≤ n) (hhi : n < 10 ^ (k + 1)) : decimalWidth n = k + 1 := by
  rw [decimalWidth, Nat.log_eq_of_pow_le_of_lt_pow hlo hhi]

lemma decimalWidth_le (h : n < 10 ^ k) (hk : 0 < k) : decimalWidth n ≤ k := by
  rw [decimalWidth]
  have hlog := Nat.log_lt_of_lt_pow' (Nat.pos_iff_ne_zero.mp hk) h
  exact hlog

lemma decimalPadded_injective (w : Nat) : Function.Injective (decimalPadded w) := by
  intro m n h
  have hwidth : max w (decimalWidth m) = max w (decimalWidth n) := by
    have hlength := congrArg List.length h
    rwa [decimalPadded, decimalPadded, length_decimalFixed, length_decimalFixed] at hlength
  have hfit : ∀ k, k < 10 ^ max w (decimalWidth k) := by
    intro k
    exact (lt_pow_decimalWidth k).trans_le (Nat.pow_le_pow_right (by decide) (le_max_right _ _))
  have hm := hfit m
  rw [decimalPadded, decimalPadded, hwidth] at h
  rw [hwidth] at hm
  exact decimalFixed_injOn hm (hfit n) h

end LibSignal.Lib
