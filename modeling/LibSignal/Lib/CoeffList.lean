import Mathlib

/-!
# Coefficient lists as polynomials

A list of coefficients, constant term first, is read as a polynomial over a commutative ring (`ofCoeffs`).
`eval_ofCoeffs` is Horner's rule.
-/

namespace LibSignal.Lib
open Polynomial

section Ring
variable {R : Type*} [CommRing R]

noncomputable def ofCoeffs : List R → R[X]
  | [] => 0
  | c :: cs => C c + X * ofCoeffs cs

@[simp] lemma ofCoeffs_nil : ofCoeffs ([] : List R) = 0 := rfl

@[simp] lemma ofCoeffs_cons (c : R) (cs : List R) : ofCoeffs (c :: cs) = C c + X * ofCoeffs cs := rfl

lemma eval_ofCoeffs (cs : List R) (x : R) : (ofCoeffs cs).eval x = cs.foldr (fun c acc => acc * x + c) 0 := by
  induction cs with
  | nil => simp
  | cons c cs ih => simp [ih, add_comm, mul_comm]

lemma coeff_ofCoeffs (cs : List R) (i : Nat) : (ofCoeffs cs).coeff i = cs.getD i 0 := by
  induction cs generalizing i with
  | nil => simp
  | cons c cs ih =>
    cases i with
    | zero => simp
    | succ i => simp [ih]

lemma degree_ofCoeffs_lt (cs : List R) : (ofCoeffs cs).degree < cs.length := by
  rw [degree_lt_iff_coeff_zero]
  intro i hi
  rw [coeff_ofCoeffs, List.getD_eq_default _ _ hi]

end Ring

section Field
variable {F : Type*} [Field F]

lemma interpolate_eq_of_nodes {f : F[X]} {n : Nat} {xs ys : Nat → F}
    (hdeg : f.degree < n) (hinj : Set.InjOn xs (Finset.range n)) (hval : ∀ i < n, f.eval (xs i) = ys i) :
    Lagrange.interpolate (Finset.range n) xs ys = f := by
  refine (Lagrange.eq_interpolate_of_eval_eq ys hinj ?_ ?_).symm
  · rwa [Finset.card_range]
  · exact fun i hi => hval i (Finset.mem_range.mp hi)

lemma numerator_mul_denominator (xs : Nat → F) (i n : Nat) : (∏ j ∈ (Finset.range n).erase i, (X - C (xs j)))
        * C (∏ j ∈ (Finset.range n).erase i, (xs i - xs j))⁻¹ = Lagrange.basis (Finset.range n) xs i := by
  rw [Lagrange.basis, ← Finset.prod_inv_distrib, map_prod, ← Finset.prod_mul_distrib]
  refine Finset.prod_congr rfl ?_
  intro j _
  rw [Lagrange.basisDivisor, mul_comm]

end Field

lemma foldl_range_skip {M α : Type*} [CommMonoid M] (f : α → Nat → α) (val : α → M) (g : Nat → M)
    (i : Nat) (hskip : ∀ a, f a i = a) (hstep : ∀ a j, j ≠ i → val (f a j) = val a * g j) (a : α) (n : Nat) :
    val ((List.range n).foldl f a) = val a * ∏ j ∈ (Finset.range n).erase i, g j := by
  induction n with
  | zero => simp
  | succ n ih =>
    rw [List.range_succ, List.foldl_append, List.foldl_cons, List.foldl_nil, Finset.range_add_one]
    by_cases hn : n = i
    · subst hn
      rw [hskip, ih, Finset.erase_insert_eq_erase]
    · have hmem : n ∉ (Finset.range n).erase i := by simp
      rw [hstep _ _ hn, ih, Finset.erase_insert_of_ne hn, Finset.prod_insert hmem, mul_comm (g n),
        mul_assoc]

lemma foldl_range_add {M α : Type*} [AddCommMonoid M] (f : α → Nat → α) (val : α → M) (g : Nat → M)
    (hstep : ∀ a j, val (f a j) = val a + g j) (a : α) (n : Nat) :
    val ((List.range n).foldl f a) = val a + ∑ j ∈ Finset.range n, g j := by
  induction n with
  | zero => simp
  | succ n ih =>
    rw [List.range_succ, List.foldl_append, List.foldl_cons, List.foldl_nil, hstep, ih,
      Finset.sum_range_succ, add_assoc]

end LibSignal.Lib
