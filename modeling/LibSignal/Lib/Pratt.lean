import Mathlib.Data.List.Prime
import Mathlib.NumberTheory.LucasPrimality
import Mathlib.Tactic.NormNum.Prime

/-!
# Primality certificates

`powMod` computes powers modulo a number bit by bit, so that the kernel can evaluate it on large exponents.
-/

namespace LibSignal.Lib

def powMod (m a : Nat) : (bits n : Nat) → Nat
  | 0, _ => 1 % m
  | bits + 1, n =>
    let r := powMod m a bits (n / 2)
    if n % 2 = 1 then r * r % m * a % m else r * r % m

lemma powMod_eq {m a bits n : Nat} (h : n < 2 ^ bits) : powMod m a bits n = a ^ n % m := by
  induction bits generalizing n with
  | zero =>
    have hn : n = 0 := by simpa using h
    rw [powMod, hn, pow_zero]
  | succ bits ih =>
    have hhalf : n / 2 < 2 ^ bits := Nat.div_lt_of_lt_mul (by rwa [pow_succ'] at h)
    have hsquare : a ^ (n / 2) % m * (a ^ (n / 2) % m) % m = a ^ (n / 2 * 2) % m := by
      rw [← Nat.mul_mod, pow_mul, sq]
    rw [powMod, ih hhalf]
    rw [hsquare]
    split
    · -- an odd exponent: one more factor
      rename_i hodd
      rw [Nat.mod_mul_mod, ← pow_succ]
      congr 2
      omega
    · rename_i heven
      congr 2
      omega

/-- The Lucas test for `p` with witness `a`, where the listed numbers multiply to `p - 1`. -/
def LucasWitness (bits p a : Nat) (factors : List Nat) : Prop :=
  1 < p ∧ p ≤ 2 ^ bits ∧ factors.prod = p - 1 ∧ powMod p a bits (p - 1) = 1 ∧
    ∀ q ∈ factors, powMod p a bits ((p - 1) / q) ≠ 1

instance (bits p a : Nat) (factors : List Nat) : Decidable (LucasWitness bits p a factors) :=
  inferInstanceAs (Decidable (_ ∧ _))

lemma zmod_pow_eq_one_iff {bits p a n : Nat} (hp : 1 < p) (hn : n < 2 ^ bits) :
    (a : ZMod p) ^ n = 1 ↔ powMod p a bits n = 1 := by
  rw [powMod_eq hn, ← Nat.cast_pow, ← Nat.cast_one, ZMod.natCast_eq_natCast_iff', Nat.mod_eq_of_lt hp]

/-- The Lucas test, with a factorisation into primes. -/
theorem prime_of_lucasWitness {p : Nat} (bits a : Nat) (factors : List Nat)
    (h : LucasWitness bits p a factors) (hprime : ∀ q ∈ factors, q.Prime) : p.Prime := by
  obtain ⟨hp, hbits, hprod, hone, hne⟩ := h
  have hlt : ∀ n, n ≤ p - 1 → n < 2 ^ bits := by omega
  apply lucas_primality p (a : ZMod p)
  · exact (zmod_pow_eq_one_iff hp (hlt _ le_rfl)).mpr hone
  · intro q hq hdvd hpow
    rw [← hprod] at hdvd
    -- a prime divisor of the product is one of the listed primes
    obtain ⟨r, hr, hqr⟩ := (Prime.dvd_prod_iff hq.prime).mp hdvd
    obtain rfl : q = r := (Nat.prime_dvd_prime_iff_eq hq (hprime r hr)).mp hqr
    exact hne q hr ((zmod_pow_eq_one_iff hp (hlt _ (Nat.div_le_self _ _))).mp hpow)

end LibSignal.Lib
