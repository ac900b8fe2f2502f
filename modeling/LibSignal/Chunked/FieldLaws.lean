import LibSignal.Chunked.GF16

/-!
# The word arithmetic is that of a field

The residues modulo the reducing polynomial are exactly the 16-bit words (`GF16.toRoot_surjective`), so the
residue ring has no zero divisors and the reducing polynomial is irreducible (`modulus_irreducible`).
-/

namespace LibSignal.Chunked
open Polynomial Lib

lemma modulus_monic : modulus.Monic := by
  unfold modulus
  monicity!

lemma gfMul_modByMonic (a b : UInt16) :
    bitPoly 16 (gfMul a b).toNat = (bitPoly 16 a.toNat * bitPoly 16 b.toNat) %ₘ modulus := by
  obtain ⟨q, hq⟩ := gfMul_spec a b
  have hdeg : (bitPoly 16 (gfMul a b).toNat).degree < modulus.degree := by
    rw [modulus_degree]
    exact bitPoly_degree_lt 16 _
  have hsplit : bitPoly 16 (gfMul a b).toNat + modulus * q = bitPoly 16 a.toNat * bitPoly 16 b.toNat := by
    rw [← hq]
    ring
  exact (div_modByMonic_unique q _ modulus_monic ⟨hsplit, hdeg⟩).2.symm

namespace GF16

lemma exists_word {g : (ZMod 2)[X]} (h : g.degree < 16) : ∃ a : UInt16, bitPoly 16 a.toNat = g := by
  have hlt := Nat.ofBits_lt_two_pow fun i : Fin 16 => decide (g.coeff i = 1)
  refine ⟨UInt16.ofNat (Nat.ofBits fun i : Fin 16 => decide (g.coeff i = 1)), ?_⟩
  rw [UInt16.toNat_ofNat', Nat.mod_eq_of_lt hlt]
  ext i
  rw [bitPoly_coeff]
  by_cases hi : i < 16
  · -- a coefficient is zero or one
    rw [Nat.testBit_ofBits_lt _ i hi]
    have hbit : ∀ z : ZMod 2, (if i < 16 ∧ decide (z = 1) = true then 1 else 0) = z := by
      simp only [hi, true_and]
      decide
    exact hbit (g.coeff i)
  · rw [if_neg fun hand => hi hand.1]
    exact ((degree_lt_iff_coeff_zero g 16).mp h i (Nat.not_lt.mp hi)).symm

lemma toRoot_surjective : Function.Surjective toRoot := by
  intro r
  obtain ⟨g, rfl⟩ := AdjoinRoot.mk_surjective r
  have hdeg : (g %ₘ modulus).degree < 16 := by
    rw [← modulus_degree]
    exact degree_modByMonic_lt g modulus_monic
  obtain ⟨a, ha⟩ := exists_word hdeg
  refine ⟨⟨a⟩, ?_⟩
  rw [toRoot, ha]
  apply AdjoinRoot.mk_eq_mk.mpr
  have hsplit := modByMonic_add_div g modulus
  refine ⟨-(g /ₘ modulus), ?_⟩
  linear_combination hsplit

end GF16

lemma modulus_prime : Prime modulus := by
  refine ⟨modulus_monic.ne_zero, ?_, ?_⟩
  · intro hunit
    have hzero := degree_eq_zero_of_isUnit hunit
    rw [modulus_degree] at hzero
    exact absurd hzero (by decide)
  · intro f g hdvd
    obtain ⟨a, ha⟩ := GF16.toRoot_surjective (AdjoinRoot.mk modulus f)
    obtain ⟨b, hb⟩ := GF16.toRoot_surjective (AdjoinRoot.mk modulus g)
    have hprod : GF16.toRoot (a * b) = GF16.toRoot 0 := by
      rw [GF16.toRoot_mul, ha, hb, ← map_mul, GF16.toRoot_zero]
      exact AdjoinRoot.mk_eq_zero.mpr hdvd
    -- the words have no zero divisors
    rcases mul_eq_zero.mp (GF16.toRoot_injective hprod) with rfl | rfl
    · rw [GF16.toRoot_zero] at ha
      exact Or.inl (AdjoinRoot.mk_eq_zero.mp ha.symm)
    · rw [GF16.toRoot_zero] at hb
      exact Or.inr (AdjoinRoot.mk_eq_zero.mp hb.symm)

lemma modulus_irreducible : Irreducible (X ^ 16 + X ^ 12 + X ^ 3 + X + 1 : (ZMod 2)[X]) :=
  modulus_prime.irreducible

lemma value_eq {a b : GF16} (h : a = b) : a.value = b.value := congrArg GF16.value h

/-- The arithmetic on 16-bit words is that of a field: the product is that of polynomials over the
two-element field modulo `x^16 + x^12 + x^3 + x + 1`, it is commutative and associative, distributes over
exclusive or and has identity one; the modulus is irreducible; and division undoes multiplication. -/
theorem gf_isField : (∀ a b : UInt16, bitPoly 16 (gfMul a b).toNat =
      (bitPoly 16 a.toNat * bitPoly 16 b.toNat) %ₘ (X ^ 16 + X ^ 12 + X ^ 3 + X + 1)) ∧
    (∀ a b, gfMul a b = gfMul b a) ∧ (∀ a b c, gfMul (gfMul a b) c = gfMul a (gfMul b c)) ∧
    (∀ a b c, gfMul a (b ^^^ c) = gfMul a b ^^^ gfMul a c) ∧ (∀ a, gfMul 1 a = a ∧ gfMul a 1 = a) ∧
    Irreducible (X ^ 16 + X ^ 12 + X ^ 3 + X + 1 : (ZMod 2)[X]) ∧ ∀ a b, b ≠ 0 → gfMul (gfDiv a b) b = a := by
  refine ⟨gfMul_modByMonic, ?_, ?_, ?_, ?_, modulus_irreducible, ?_⟩
  · intro a b
    exact value_eq (mul_comm (⟨a⟩ : GF16) ⟨b⟩)
  · intro a b c
    exact value_eq (mul_assoc (⟨a⟩ : GF16) ⟨b⟩ ⟨c⟩)
  · intro a b c
    exact value_eq (mul_add (⟨a⟩ : GF16) ⟨b⟩ ⟨c⟩)
  · intro a
    exact ⟨value_eq (one_mul (⟨a⟩ : GF16)), value_eq (mul_one (⟨a⟩ : GF16))⟩
  · intro a b hb
    have hne : (⟨b⟩ : GF16) ≠ 0 := fun hzero => hb (value_eq hzero)
    exact value_eq (div_mul_cancel₀ (⟨a⟩ : GF16) hne)

/-- A quotient of two words. -/
theorem gf_isField_quotient : (3 : UInt16) ≠ 0 ∧ gfMul (gfDiv 7 3) 3 = 7 :=
  ⟨by decide, gf_isField.2.2.2.2.2.2 7 3 (by decide)⟩

end LibSignal.Chunked
