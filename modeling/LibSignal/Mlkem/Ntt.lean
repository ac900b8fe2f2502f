import LibSignal.Lib.Ntt
import LibSignal.Mlkem.Poly

/-!
# The transforms of ML-KEM

Model of `ntt`, `inverseNTT` and `nttMul` of `internal/mlkem768incr/field.go`, with the tables of the source.
-/

namespace LibSignal.Mlkem
open Polynomial Lib

def gammaTable : List Nat :=
  [17, 3312, 2761, 568, 583, 2746, 2649, 680, 1637, 1692, 723, 2606, 2288, 1041, 1100, 2229, 1409, 1920, 2662, 667,
    3281, 48, 233, 3096, 756, 2573, 2156, 1173, 3015, 314, 3050, 279, 1703, 1626, 1651, 1678, 2789, 540, 1789, 1540,
    1847, 1482, 952, 2377, 1461, 1868, 2687, 642, 939, 2390, 2308, 1021, 2437, 892, 2388, 941, 733, 2596, 2337, 992,
    268, 3061, 641, 2688, 1584, 1745, 2298, 1031, 2037, 1292, 3220, 109, 375, 2954, 2549, 780, 2090, 1239, 1645,
    1684, 1063, 2266, 319, 3010, 2773, 556, 757, 2572, 2099, 1230, 561, 2768, 2466, 863, 2594, 735, 2804, 525, 1092,
    2237, 403, 2926, 1026, 2303, 1143, 2186, 2150, 1179, 2775, 554, 886, 2443, 1722, 1607, 1212, 2117, 1874, 1455,
    1029, 2300, 2110, 1219, 2935, 394, 885, 2444, 2154, 1175]

def zetaTable : List Nat :=
  [1, 1729, 2580, 3289, 2642, 630, 1897, 848, 1062, 1919, 193, 797, 2786, 3260, 569, 1746, 296, 2447, 1339, 1476,
    3046, 56, 2240, 1333, 1426, 2094, 535, 2882, 2393, 2879, 1974, 821, 289, 331, 3253, 1756, 1197, 2304, 2277, 2055,
    650, 1977, 2513, 632, 2865, 33, 1320, 1915, 2319, 1435, 807, 452, 1438, 2868, 1534, 2402, 2647, 2617, 1481, 648,
    2474, 3110, 1227, 910, 17, 2761, 583, 2649, 1637, 723, 2288, 1100, 1409, 2662, 3281, 233, 756, 2156, 3015, 3050,
    1703, 1651, 2789, 1789, 1847, 952, 1461, 2687, 939, 2308, 2437, 2388, 733, 2337, 268, 641, 1584, 2298, 2037,
    3220, 375, 2549, 2090, 1645, 1063, 319, 2773, 757, 2099, 561, 2466, 2594, 2804, 1092, 403, 1026, 1143, 2150,
    2775, 886, 1722, 1212, 1874, 1029, 2110, 2935, 885, 2154]

lemma tables_reduced : (∀ x ∈ gammaTable, x < q) ∧ ∀ x ∈ zetaTable, x < q := by decide +kernel

lemma zero_lt_q : (0 : UInt16).toNat < q := by decide

def tableEntry (table : List Nat) (h : ∀ x ∈ table, x < q) (i : Nat) : FieldElement :=
  if hi : i < table.length then .ofNat table[i] (h _ (List.getElem_mem hi)) else ⟨0, zero_lt_q⟩

def gammas (i : Nat) : FieldElement := tableEntry gammaTable tables_reduced.1 i

def zetas (i : Nat) : FieldElement := tableEntry zetaTable tables_reduced.2 i

def nttMulPairs : Nat → List FieldElement → List FieldElement → List FieldElement
  | i, a0 :: a1 :: f, b0 :: b1 :: g =>
    fieldAddMul a0 b0 (fieldMul a1 b1) (gammas i) :: fieldAddMul a0 b1 a1 b0 :: nttMulPairs (i + 1) f g
  | _, _, _ => []

def nttBlock (zeta : FieldElement) (flo fhi : List FieldElement) : List FieldElement :=
  List.zipWith (fun lo hi => fieldAdd lo (fieldMul zeta hi)) flo fhi ++
    List.zipWith (fun lo hi => fieldSub lo (fieldMul zeta hi)) flo fhi

def nttBlocks (length : Nat) : Nat → Nat → List FieldElement → List FieldElement
  | 0, _, f => f
  | blocks + 1, kk, f =>
    nttBlock (zetas kk) (f.take length) ((f.drop length).take length) ++
      nttBlocks length blocks (kk + 1) (f.drop (length + length))

def nttLoop : Nat → Nat → Nat → Nat → List FieldElement → List FieldElement
  | 0, _, _, _, f => f
  | rounds + 1, length, blocks, kk, f =>
    nttLoop rounds (length / 2) (2 * blocks) (kk + blocks) (nttBlocks length blocks kk f)

def inverseBlock (zeta : FieldElement) (flo fhi : List FieldElement) : List FieldElement :=
  List.zipWith (fun lo hi => fieldAdd lo hi) flo fhi ++ List.zipWith (fun lo hi => fieldMulSub zeta hi lo) flo fhi

def inverseBlocks (length : Nat) : Nat → Nat → List FieldElement → List FieldElement
  | 0, _, f => f
  | blocks + 1, kk, f =>
    inverseBlock (zetas kk) (f.take length) ((f.drop length).take length) ++
      inverseBlocks length blocks (kk - 1) (f.drop (length + length))

def inverseLoop : Nat → Nat → Nat → Nat → List FieldElement → List FieldElement
  | 0, _, _, _, f => f
  | rounds + 1, length, blocks, kk, f =>
    inverseLoop rounds (2 * length) (blocks / 2) (kk - blocks) (inverseBlocks length blocks kk f)

def classes (f : List FieldElement) : List (ZMod q) := f.map FieldElement.toZ

lemma length_classes (f : List FieldElement) : (classes f).length = f.length := List.length_map _

lemma classes_injective : Function.Injective classes := List.map_injective_iff.mpr FieldElement.toZ_injective

def zetaClass (i : Nat) : ZMod q := (zetas i).toZ

def gammaClass (i : Nat) : ZMod q := (gammas i).toZ

lemma classes_nttBlock (zeta : FieldElement) (flo fhi : List FieldElement) :
    classes (nttBlock zeta flo fhi) = splitBlock zeta.toZ (classes flo) (classes fhi) := by
  simp only [classes, nttBlock, splitBlock, List.map_append, List.map_zipWith, List.zipWith_map,
    FieldElement.toZ_fieldAdd, FieldElement.toZ_fieldSub, FieldElement.toZ_fieldMul]

lemma classes_inverseBlock (zeta : FieldElement) (flo fhi : List FieldElement) :
    classes (inverseBlock zeta flo fhi) = joinBlock zeta.toZ (classes flo) (classes fhi) := by
  simp only [classes, inverseBlock, joinBlock, List.map_append, List.map_zipWith, List.zipWith_map,
    FieldElement.toZ_fieldAdd, FieldElement.toZ_fieldMulSub]

lemma classes_nttBlocks (length blocks kk : Nat) (f : List FieldElement) :
    classes (nttBlocks length blocks kk f) = splitLayer zetaClass length blocks kk (classes f) := by
  induction blocks generalizing kk f with
  | zero => rfl
  | succ blocks ih =>
    have hrest := ih (kk + 1) (f.drop (length + length))
    have hblock := classes_nttBlock (zetas kk) (f.take length) ((f.drop length).take length)
    simp only [classes, List.map_take, List.map_drop] at hrest hblock ⊢
    rw [nttBlocks, List.map_append, hrest, hblock]
    rfl

lemma classes_inverseBlocks (length blocks kk : Nat) (f : List FieldElement) :
    classes (inverseBlocks length blocks kk f) = joinLayer zetaClass length blocks kk (classes f) := by
  induction blocks generalizing kk f with
  | zero => rfl
  | succ blocks ih =>
    have hrest := ih (kk - 1) (f.drop (length + length))
    have hblock := classes_inverseBlock (zetas kk) (f.take length) ((f.drop length).take length)
    simp only [classes, List.map_take, List.map_drop] at hrest hblock ⊢
    rw [inverseBlocks, List.map_append, hrest, hblock]
    rfl

lemma classes_nttLoop (rounds length blocks kk : Nat) (f : List FieldElement) :
    classes (nttLoop rounds length blocks kk f) = splitLayers zetaClass rounds length blocks kk (classes f) := by
  induction rounds generalizing length blocks kk f with
  | zero => rfl
  | succ rounds ih => rw [nttLoop, ih, classes_nttBlocks, splitLayers]

lemma classes_inverseLoop (rounds length blocks kk : Nat) (f : List FieldElement) :
    classes (inverseLoop rounds length blocks kk f) = joinLayers zetaClass rounds length blocks kk (classes f) := by
  induction rounds generalizing length blocks kk f with
  | zero => rfl
  | succ rounds ih => rw [inverseLoop, ih, classes_inverseBlocks, joinLayers]

lemma classes_nttMulPairs (i : Nat) (f g : List FieldElement) :
    classes (nttMulPairs i f g) = mulPairs gammaClass i (classes f) (classes g) := by
  induction i, f, g using nttMulPairs.induct with
  | case1 i a0 a1 f b0 b1 g ih =>
    simp only [classes] at ih
    simp only [classes, nttMulPairs, List.map_cons, mulPairs, FieldElement.toZ_fieldAddMul,
      FieldElement.toZ_fieldMul, ih, gammaClass]
  | case2 f i g h =>
    rw [nttMulPairs.eq_2 _ _ _ h]
    rcases f with _ | ⟨a0, _ | ⟨a1, f⟩⟩
    · rfl
    · rfl
    · rcases g with _ | ⟨b0, _ | ⟨b1, g⟩⟩
      · rfl
      · rfl
      · exact (h a0 a1 f b0 b1 g rfl rfl).elim

def ntt (f : Poly) : Poly :=
  ⟨nttLoop 7 128 1 1 f.coeffs, by
    rw [← length_classes, classes_nttLoop, length_splitLayers, length_classes, f.length_coeffs]
    rw [length_classes, f.length_coeffs]⟩

def inverseNTT (f : Poly) : Poly :=
  ⟨(inverseLoop 7 2 64 127 f.coeffs).map fun x => fieldMul x (.ofNat 3303 (by decide)), by
    rw [List.length_map, ← length_classes, classes_inverseLoop, length_joinLayers, length_classes, f.length_coeffs]
    rw [length_classes, f.length_coeffs]⟩

def nttMul (f g : Poly) : Poly :=
  ⟨nttMulPairs 0 f.coeffs g.coeffs, by
    have hf : (classes f.coeffs).length = 128 * 2 := (length_classes _).trans f.length_coeffs
    have hg : (classes g.coeffs).length = 128 * 2 := (length_classes _).trans g.length_coeffs
    rw [← length_classes, classes_nttMulPairs, length_mulPairs hf hg]⟩

def blockConstant (b : Nat) : ZMod q :=
  if b = 1 then -1 else if b % 2 = 0 then zetaClass (b / 2) else -zetaClass (b / 2)

lemma tables_related : (∀ b < 128, 1 ≤ b → zetaClass b ^ 2 = blockConstant b) ∧
      (∀ e < 7, ∀ b < 2 ^ e, zetaClass (2 * 2 ^ e - 1 - b) * zetaClass (2 ^ e + b) = -1) ∧
      ∀ b < 128, gammaClass b = blockConstant (128 + b) := by
  decide +kernel

lemma roots_zetas {b : Nat} (hpos : 1 ≤ b) (hb : b < 128) : Roots blockConstant zetaClass b := by
  refine ⟨tables_related.1 b hb hpos, ?_, ?_⟩
  · rw [blockConstant, if_neg (by omega), if_pos (by omega), show 2 * b / 2 = b by omega]
  · rw [blockConstant, if_neg (by omega), if_neg (by omega), show (2 * b + 1) / 2 = b by omega]

noncomputable def Poly.toPolynomial (f : Poly) : (ZMod q)[X] := ofCoeffs (classes f.coeffs)

noncomputable def ringModulus (d : Nat) : (ZMod q)[X] := X ^ d + 1

instance : Fact (1 < q) := ⟨by decide⟩

lemma ringModulus_eq (d : Nat) : ringModulus d = blockModulus d (blockConstant 1) := by
  have hconstant : blockConstant 1 = -1 := if_pos rfl
  rw [ringModulus, blockModulus, hconstant, map_neg, map_one, sub_neg_eq_add]

lemma ringModulus_monic : (ringModulus n).Monic := by
  rw [ringModulus_eq]
  exact blockModulus_monic (by decide) _

lemma degree_ringModulus : (ringModulus n).degree = 256 := by
  rw [ringModulus_eq]
  exact degree_blockModulus (by decide) _

-- the power is not to be unfolded
attribute [irreducible] ringModulus

namespace Poly
variable (f g : Poly)

lemma length_classes : (classes f.coeffs).length = 256 := by
  rw [Mlkem.length_classes, f.length_coeffs]

lemma degree_toPolynomial_lt : f.toPolynomial.degree < 256 := by
  have hdegree := degree_ofCoeffs_lt (classes f.coeffs)
  rwa [f.length_classes] at hdegree

lemma toPolynomial_injective : Function.Injective toPolynomial := by
  intro f g h
  have hclasses := ofCoeffs_inj (f.length_classes.trans g.length_classes.symm) h
  exact Poly.ext (classes_injective hclasses)

lemma classes_polyAdd :
    classes (polyAdd f g).coeffs = List.zipWith (fun a b => a + b) (classes f.coeffs) (classes g.coeffs) := by
  simp only [classes, polyAdd, List.map_zipWith, List.zipWith_map, FieldElement.toZ_fieldAdd]

@[simp] lemma toPolynomial_polyAdd : (polyAdd f g).toPolynomial = f.toPolynomial + g.toPolynomial := by
  rw [toPolynomial, classes_polyAdd, ofCoeffs_zipWith_add (f.length_classes.trans g.length_classes.symm)]
  rfl

noncomputable def ofPolynomial (P : (ZMod q)[X]) : Poly :=
  ⟨(List.range n).map fun i => .ofNat (P.coeff i).val (P.coeff i).val_lt, by simp⟩

lemma toPolynomial_ofPolynomial {P : (ZMod q)[X]} (h : P.degree < 256) : (ofPolynomial P).toPolynomial = P := by
  ext i
  rw [toPolynomial, coeff_ofCoeffs, classes, ofPolynomial, List.map_map]
  by_cases hi : i < 256
  · rw [List.getD_eq_getElem _ _ (by simpa using hi), List.getElem_map, List.getElem_range]
    exact FieldElement.toZ_ofNat_val _
  · rw [List.getD_eq_default _ _ (by simpa using hi)]
    refine (coeff_eq_zero_of_degree_lt (h.trans_le ?_)).symm
    exact_mod_cast not_lt.mp hi

end Poly

/-! ## Correctness -/

lemma residues_ntt {f : Poly} {P : (ZMod q)[X]} (h : ringModulus n ∣ P - f.toPolynomial) :
    Residues blockConstant 2 P 128 128 (classes (ntt f).coeffs) := by
  have hsize : 2 * 2 ^ 7 = n := rfl
  have hstart : Residues blockConstant (2 * 2 ^ 7) P 1 1 (classes f.coeffs) := by
    refine ⟨?_, trivial⟩
    rw [hsize, List.take_of_length_le f.length_classes.le, ← ringModulus_eq]
    exact h
  have hroots : ∀ b, 1 ≤ b → b < 2 ^ 7 * 1 → Roots blockConstant zetaClass b :=
    fun b hpos hb => roots_zetas hpos hb
  have hend := Residues.splitLayers f.length_classes hroots hstart
  rw [ntt, classes_nttLoop]
  exact hend

lemma eq_ntt {f g : Poly} {P : (ZMod q)[X]} (h : ringModulus n ∣ P - f.toPolynomial)
    (hg : Residues blockConstant 2 P 128 128 (classes g.coeffs)) : g = ntt f := by
  refine Poly.ext (classes_injective ?_)
  exact Residues.unique (by decide) g.length_classes (ntt f).length_classes hg (residues_ntt h)

lemma ntt_polyAdd (f g : Poly) : ntt (polyAdd f g) = polyAdd (ntt f) (ntt g) := by
  refine (eq_ntt (P := f.toPolynomial + g.toPolynomial) (by simp) ?_).symm
  rw [Poly.classes_polyAdd]
  refine Residues.add ?_ (residues_ntt (by simp)) (residues_ntt (by simp))
  rw [Poly.length_classes, Poly.length_classes]

lemma nttMul_ntt {f g h : Poly} (hdvd : ringModulus n ∣ f.toPolynomial * g.toPolynomial - h.toPolynomial) :
    nttMul (ntt f) (ntt g) = ntt h := by
  refine eq_ntt hdvd ?_
  have hgammas : ∀ b < 128, gammaClass (0 + b) = blockConstant (128 + b) := by
    intro b hb
    rw [zero_add]
    exact tables_related.2.2 b hb
  rw [nttMul, classes_nttMulPairs]
  refine Residues.mulPairs hgammas (ntt f).length_classes (ntt g).length_classes ?_ ?_
  · exact residues_ntt (by simp)
  · exact residues_ntt (by simp)

lemma inverseNTT_ntt (f : Poly) : inverseNTT (ntt f) = f := by
  have hmirror : ∀ e < 7, ∀ b < 2 ^ e * 1,
      zetaClass (2 * (2 ^ e * 1) - 1 - b) * zetaClass (2 ^ e * 1 + b) = -1 := by
    intro e he b hb
    rw [mul_one] at hb ⊢
    exact tables_related.2.1 e he b hb
  have hlength : (classes f.coeffs).length = 1 * (2 * 2 ^ 7) := f.length_classes
  have hjoined := joinLayers_splitLayers Nat.one_pos hlength hmirror
  have hscale : ∀ x : ZMod q, 2 ^ 7 * x * 3303 = x := by
    intro x
    have hunit : (2 ^ 7 * 3303 : ZMod q) = 1 := by decide
    linear_combination x * hunit
  refine Poly.ext (classes_injective ?_)
  have hclasses : classes (inverseNTT (ntt f)).coeffs =
      (joinLayers zetaClass 7 2 64 127 (splitLayers zetaClass 7 128 1 1 (classes f.coeffs))).map (· * 3303) := by
    rw [← classes_nttLoop, ← classes_inverseLoop, classes, inverseNTT, List.map_map, classes, List.map_map]
    refine List.map_congr_left fun x _ => ?_
    exact FieldElement.toZ_fieldMul _ _
  rw [hclasses]
  refine (congrArg (List.map (· * 3303)) hjoined).trans ?_
  rw [List.map_map]
  refine (List.map_congr_left fun x _ => ?_).trans (List.map_id _)
  exact hscale x

instance : Finite Poly := by
  have : Finite FieldElement := Finite.of_injective _ FieldElement.toZ_injective
  refine Finite.of_injective (fun f : Poly => fun i : Fin n => f.coeffs.getD i (zetas 0)) fun f g h => ?_
  refine Poly.ext (List.ext_getElem (f.length_coeffs.trans g.length_coeffs.symm) fun i hf hg => ?_)
  have hentry := congrFun h ⟨i, f.length_coeffs ▸ hf⟩
  dsimp only at hentry
  rwa [List.getD_eq_getElem _ _ hf, List.getD_eq_getElem _ _ hg] at hentry

lemma ntt_inverseNTT (f : Poly) : ntt (inverseNTT f) = f := by
  have hinjective : Function.Injective ntt := Function.LeftInverse.injective inverseNTT_ntt
  obtain ⟨g, rfl⟩ := Finite.surjective_of_injective hinjective f
  rw [inverseNTT_ntt]

lemma toPolynomial_inverseNTT_nttMul (f g : Poly) :
    (inverseNTT (nttMul (ntt f) (ntt g))).toPolynomial = (f.toPolynomial * g.toPolynomial) %ₘ ringModulus n := by
  have hdegree : ((f.toPolynomial * g.toPolynomial) %ₘ ringModulus n).degree < 256 := by
    have hlt := degree_modByMonic_lt (f.toPolynomial * g.toPolynomial) ringModulus_monic
    rwa [degree_ringModulus] at hlt
  have hremainder : ∀ P M : (ZMod q)[X], M ∣ P - P %ₘ M :=
    fun P M => dvd_sub_comm.mp (dvd_modByMonic_sub P M)
  have hproduct := Poly.toPolynomial_ofPolynomial hdegree
  have hdvd : ringModulus n ∣ f.toPolynomial * g.toPolynomial -
      (Poly.ofPolynomial ((f.toPolynomial * g.toPolynomial) %ₘ ringModulus n)).toPolynomial := by
    rw [hproduct]
    exact hremainder _ _
  have hinverse := congrArg inverseNTT (nttMul_ntt hdvd)
  rw [inverseNTT_ntt] at hinverse
  exact (congrArg Poly.toPolynomial hinverse).trans hproduct

/-- The words that the field operations of the transforms hand to the reductions are the exact integers, without
an overflow, and in the range of the reductions. -/
structure CallsInRange (a b c d : FieldElement) : Prop where
  reduced : a.val.toNat < q
  add : (a.val + b.val).toNat = a.val.toNat + b.val.toNat ∧ (a.val + b.val).toNat < 2 * q
  sub : (a.val - b.val + 3329).toNat = a.val.toNat + 3329 - b.val.toNat ∧ (a.val - b.val + 3329).toNat < 2 * q
  mul : (a.val.toUInt32 * b.val.toUInt32).toNat = a.val.toNat * b.val.toNat ∧
    (a.val.toUInt32 * b.val.toUInt32).toNat < 2 * q ^ 2
  mulSub : (a.val.toUInt32 * (b.val - c.val + 3329).toUInt32).toNat =
      a.val.toNat * (b.val.toNat + 3329 - c.val.toNat) ∧
    (a.val.toUInt32 * (b.val - c.val + 3329).toUInt32).toNat < 2 * q ^ 2
  addMul : (a.val.toUInt32 * b.val.toUInt32 + c.val.toUInt32 * d.val.toUInt32).toNat =
      a.val.toNat * b.val.toNat + c.val.toNat * d.val.toNat ∧
    (a.val.toUInt32 * b.val.toUInt32 + c.val.toUInt32 * d.val.toUInt32).toNat < 2 * q ^ 2

lemma callsInRange (a b c d : FieldElement) : CallsInRange a b c d where
  reduced := a.val_lt
  add := ⟨a.toNat_add_words b, a.add_words_lt b⟩
  sub := ⟨a.toNat_sub_words b, a.sub_words_lt b⟩
  mul := ⟨a.toNat_mul_words _ b.val_lt_twice, a.mul_words_lt b.val_lt_twice⟩
  mulSub := ⟨by rw [a.toNat_mul_words _ (b.sub_words_lt c), b.toNat_sub_words c], a.mul_words_lt (b.sub_words_lt c)⟩
  addMul := ⟨a.toNat_addMul_words b c d, a.addMul_words_lt b c d⟩

/-- The transforms are inverse and additive, the product of transforms is the product modulo `X ^ 256 + 1`, and
the arithmetic is exact. -/
theorem ntt_multiplication_exact : (∀ f : Poly, inverseNTT (ntt f) = f) ∧
      (∀ f g : Poly, (inverseNTT (nttMul (ntt f) (ntt g))).toPolynomial =
        (f.toPolynomial * g.toPolynomial) %ₘ ringModulus n) ∧
      (∀ f g : Poly, ntt (polyAdd f g) = polyAdd (ntt f) (ntt g)) ∧
      (∀ a : UInt32, a.toNat < 2 * q ^ 2 → (fieldReduce a).toNat = a.toNat % q) ∧
      ∀ a b c d : FieldElement, CallsInRange a b c d := by
  refine ⟨inverseNTT_ntt, toPolynomial_inverseNTT_nttMul, ntt_polyAdd, ?_, callsInRange⟩
  intro a ha
  exact toNat_fieldReduce ha

/-- The largest value in range. -/
theorem ntt_multiplication_exact_largest : (fieldReduce 22164481).toNat = 22164481 % q :=
  ntt_multiplication_exact.2.2.2.1 22164481 (by decide)

end LibSignal.Mlkem
