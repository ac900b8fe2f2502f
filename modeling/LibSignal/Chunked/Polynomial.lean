import LibSignal.Lib.CoeffList
import LibSignal.Chunked.GF16

/-!
# Interpolation and the polynomials of a message

Model of the polynomial part of `internal/spqr/chunked/polynomial.go`: Horner evaluation and Lagrange
interpolation on coefficient lists, and the split of a message into big-endian 16-bit values that are dealt
round-robin to sixteen slots.
-/

namespace LibSignal.Chunked
open Polynomial Lib

abbrev Bytes := List UInt8

def chunkSize : Nat := 32

def numPolys : Nat := chunkSize / 2

inductive ChunkErr where
  | oddLength
  | serializationInvalid
deriving DecidableEq, Repr

def be16 (v : UInt16) : UInt8 × UInt8 :=
  ((v >>> 8).toUInt8, v.toUInt8)

def ofBe16 (hi lo : UInt8) : UInt16 :=
  (hi.toUInt16 <<< 8) ||| lo.toUInt16

@[ext]
structure Chunk where
  index : UInt16
  data : Vector UInt8 32
deriving DecidableEq, Repr

structure Pt where
  x : GF16
  y : GF16
deriving DecidableEq, Repr, Inhabited

/-! ## Polynomials as coefficient lists -/

def evalAt (p : List GF16) (x : GF16) : GF16 :=
  p.foldr (fun c acc => acc * x + c) 0

def polyMulLinear (p : List GF16) (root : GF16) : List GF16 :=
  List.zipWith (· + ·) (0 :: p) (p.map (· * root) ++ [0])

def polyAddScaled : List GF16 → List GF16 → GF16 → List GF16
  | dst, [], _ => dst
  | [], s :: src, scale => (0 + s * scale) :: polyAddScaled [] src scale
  | d :: dst, s :: src, scale => (d + s * scale) :: polyAddScaled dst src scale

def lagrangeInner (pts : List Pt) (i : Nat) (s : List GF16 × GF16) (j : Nat) : List GF16 × GF16 :=
  if j = i then s
  else (polyMulLinear s.1 (pts.getD j default).x, s.2 * ((pts.getD i default).x - (pts.getD j default).x))

def lagrangeOuter (pts : List Pt) (acc : List GF16) (i : Nat) : List GF16 :=
  let nd := (List.range pts.length).foldl (lagrangeInner pts i) ([1], 1)
  polyAddScaled acc nd.1 ((pts.getD i default).y / nd.2)

def lagrangeInterpolate (pts : List Pt) : List GF16 :=
  if pts.length = 0 then []
  else (List.range pts.length).foldl (lagrangeOuter pts) [0]

lemma GF16.neg_eq (a : GF16) : -a = a := rfl

lemma evalAt_eq (p : List GF16) (x : GF16) : evalAt p x = (ofCoeffs p).eval x :=
  (eval_ofCoeffs p x).symm

lemma ofCoeffs_zipWith_linear (p : List GF16) (root a : GF16) :
    ofCoeffs (List.zipWith (· + ·) (a :: p) (p.map (· * root) ++ [0])) = C a + ofCoeffs p * (X + C root) := by
  induction p generalizing a with
  | nil => simp
  | cons c cs ih =>
    rw [List.map_cons, List.cons_append, List.zipWith_cons_cons, ofCoeffs_cons, ih, ofCoeffs_cons,
      map_add, map_mul]
    ring

lemma ofCoeffs_polyMulLinear (p : List GF16) (root : GF16) :
    ofCoeffs (polyMulLinear p root) = ofCoeffs p * (X - C root) := by
  rw [polyMulLinear, ofCoeffs_zipWith_linear, map_zero, zero_add, sub_eq_add_neg, ← map_neg, GF16.neg_eq]

lemma length_polyMulLinear (p : List GF16) (root : GF16) : (polyMulLinear p root).length = p.length + 1 := by
  simp [polyMulLinear]

lemma ofCoeffs_polyAddScaled (dst src : List GF16) (scale : GF16) :
    ofCoeffs (polyAddScaled dst src scale) = ofCoeffs dst + ofCoeffs src * C scale := by
  induction src generalizing dst with
  | nil => cases dst <;> simp [polyAddScaled]
  | cons s src ih =>
    cases dst with
    | nil => simp [polyAddScaled, ih]; ring
    | cons d dst => simp [polyAddScaled, ih]; ring

lemma length_polyAddScaled (dst src : List GF16) (scale : GF16) :
    (polyAddScaled dst src scale).length = max dst.length src.length := by
  induction src generalizing dst with
  | nil => cases dst <;> simp [polyAddScaled]
  | cons s src ih => cases dst <;> simp [polyAddScaled, ih]

section Interpolation
variable (pts : List Pt)

def ptX (i : Nat) : GF16 := (pts.getD i default).x

def ptY (i : Nat) : GF16 := (pts.getD i default).y

lemma lagrangeInner_num (i n : Nat) : ofCoeffs ((List.range n).foldl (lagrangeInner pts i) ([1], 1)).1
      = ∏ j ∈ (Finset.range n).erase i, (X - C (ptX pts j)) := by
  have h := foldl_range_skip (lagrangeInner pts i) (fun s => ofCoeffs s.1)
    (fun j => X - C (ptX pts j)) i (by intro a; simp [lagrangeInner])
    (by intro a j hj; simp [lagrangeInner, hj, ofCoeffs_polyMulLinear, ptX]) ([1], 1) n
  simpa using h

lemma lagrangeInner_denom (i n : Nat) : ((List.range n).foldl (lagrangeInner pts i) ([1], 1)).2
      = ∏ j ∈ (Finset.range n).erase i, (ptX pts i - ptX pts j) := by
  have h := foldl_range_skip (lagrangeInner pts i) (fun s => s.2)
    (fun j => ptX pts i - ptX pts j) i (by intro a; simp [lagrangeInner])
    (by intro a j hj; simp [lagrangeInner, hj, ptX]) ([1], 1) n
  simpa using h

lemma ofCoeffs_lagrangeOuter (acc : List GF16) (i : Nat) : ofCoeffs (lagrangeOuter pts acc i)
      = ofCoeffs acc + C (ptY pts i) * Lagrange.basis (Finset.range pts.length) (ptX pts) i := by
  rw [lagrangeOuter, ofCoeffs_polyAddScaled, lagrangeInner_num, lagrangeInner_denom,
    ← numerator_mul_denominator, div_eq_mul_inv, map_mul]
  change _ + _ * (C (ptY pts i) * _) = _
  ring

lemma ofCoeffs_lagrangeInterpolate : ofCoeffs (lagrangeInterpolate pts)
      = Lagrange.interpolate (Finset.range pts.length) (ptX pts) (ptY pts) := by
  rw [lagrangeInterpolate, Lagrange.interpolate_apply]
  by_cases h0 : pts.length = 0
  · rw [if_pos h0, h0]
    simp
  · rw [if_neg h0, foldl_range_add (lagrangeOuter pts) ofCoeffs _ (ofCoeffs_lagrangeOuter pts)]
    simp

lemma injOn_ptX (hnodup : (pts.map Pt.x).Nodup) : Set.InjOn (ptX pts) (Finset.range pts.length) := by
  intro i hi j hj hij
  have hi' : i < pts.length := Finset.mem_range.mp hi
  have hj' : j < pts.length := Finset.mem_range.mp hj
  have hx : (pts.map Pt.x).get ⟨i, by simpa⟩ = (pts.map Pt.x).get ⟨j, by simpa⟩ := by
    rw [List.get_eq_getElem, List.get_eq_getElem, List.getElem_map, List.getElem_map,
      ← List.getD_eq_getElem _ default hi', ← List.getD_eq_getElem _ default hj']
    exact hij
  exact congrArg Fin.val (List.nodup_iff_injective_get.mp hnodup hx)

lemma evalAt_lagrangeInterpolate {f : GF16[X]} (hdeg : f.degree < pts.length)
    (hnodup : (pts.map Pt.x).Nodup) (hon : ∀ q ∈ pts, f.eval q.x = q.y) (x : GF16) :
    evalAt (lagrangeInterpolate pts) x = f.eval x := by
  rw [evalAt_eq, ofCoeffs_lagrangeInterpolate, interpolate_eq_of_nodes hdeg (injOn_ptX pts hnodup)]
  intro i hi
  rw [ptX, ptY, List.getD_eq_getElem _ _ hi]
  exact hon _ (List.getElem_mem hi)

lemma evalAt_lagrangeInterpolate_mem (hnodup : (pts.map Pt.x).Nodup) {p : Pt} (hp : p ∈ pts) :
    evalAt (lagrangeInterpolate pts) p.x = p.y := by
  obtain ⟨i, hi, rfl⟩ := List.getElem_of_mem hp
  have hvalue := Lagrange.eval_interpolate_at_node (ptY pts) (injOn_ptX pts hnodup) (Finset.mem_range.mpr hi)
  rwa [← ofCoeffs_lagrangeInterpolate, ← evalAt_eq, ptX, ptY, List.getD_eq_getElem _ _ hi] at hvalue

lemma length_lagrangeInner (i n : Nat) :
    ((List.range n).foldl (lagrangeInner pts i) ([1], 1)).1.length = 1 + ((Finset.range n).erase i).card := by
  induction n with
  | zero => rfl
  | succ n ih =>
    rw [List.range_succ, List.foldl_append, List.foldl_cons, List.foldl_nil, Finset.range_add_one, lagrangeInner]
    by_cases hn : n = i
    · rw [if_pos hn, ih, hn, Finset.erase_insert_eq_erase]
    · have hmem : n ∉ (Finset.range n).erase i := by simp
      rw [if_neg hn, length_polyMulLinear, ih, Finset.erase_insert_of_ne hn, Finset.card_insert_of_notMem hmem]
      omega

lemma length_lagrangeInterpolate : (lagrangeInterpolate pts).length = pts.length := by
  have houter : ∀ n ≤ pts.length, n ≠ 0 →
      ((List.range n).foldl (lagrangeOuter pts) [0]).length = pts.length := by
    intro n hn hpos
    induction n with
    | zero => exact absurd rfl hpos
    | succ n ih =>
      have hnum : ((List.range pts.length).foldl (lagrangeInner pts n) ([1], 1)).1.length = pts.length := by
        rw [length_lagrangeInner, Finset.card_erase_of_mem (Finset.mem_range.mpr hn), Finset.card_range]
        omega
      rw [List.range_succ, List.foldl_append, List.foldl_cons, List.foldl_nil, lagrangeOuter,
        length_polyAddScaled, hnum]
      by_cases h0 : n = 0
      · rw [h0, List.range_zero, List.foldl_nil, List.length_singleton]
        exact max_eq_right (by omega)
      · rw [ih (by omega) h0, max_self]
  rw [lagrangeInterpolate]
  by_cases h0 : pts.length = 0
  · rw [if_pos h0, h0, List.length_nil]
  · rw [if_neg h0, houter _ le_rfl h0]

lemma lagrangeInterpolate_ne_nil (h : pts ≠ []) : lagrangeInterpolate pts ≠ [] := by
  rw [← List.length_pos_iff, length_lagrangeInterpolate]
  exact List.length_pos_iff.mpr h

end Interpolation

/-- Interpolation at distinct nodes is exact, and the values of a short polynomial at enough distinct nodes, in
any order, determine it. -/
theorem interpolation_exact_unique : (∀ pts : List Pt, pts ≠ [] → (pts.map Pt.x).Nodup →
      (lagrangeInterpolate pts).length ≤ pts.length ∧ ∀ p ∈ pts, evalAt (lagrangeInterpolate pts) p.x = p.y) ∧
      ∀ (f xs : List GF16), xs.Nodup → f.length ≤ xs.length →
        ∀ x, evalAt (lagrangeInterpolate (xs.map fun node => ⟨node, evalAt f node⟩)) x = evalAt f x := by
  refine ⟨fun pts _ hnodup => ⟨?_, ?_⟩, fun f xs hnodup hlen x => ?_⟩
  · exact (length_lagrangeInterpolate pts).le
  · exact fun p hp => evalAt_lagrangeInterpolate_mem pts hnodup hp
  · have hdeg : (ofCoeffs f).degree < (xs.map fun node => (⟨node, evalAt f node⟩ : Pt)).length := by
      rw [List.length_map]
      exact (degree_ofCoeffs_lt f).trans_le (by exact_mod_cast hlen)
    have hnodes : ((xs.map fun node => (⟨node, evalAt f node⟩ : Pt)).map Pt.x).Nodup := by
      rw [List.map_map]
      simpa [Function.comp_def] using hnodup
    rw [evalAt_lagrangeInterpolate _ hdeg hnodes, evalAt_eq]
    intro p hp
    obtain ⟨node, _, rfl⟩ := List.mem_map.mp hp
    exact (evalAt_eq f node).symm

/-- The line through two points, and a line from its values at two others. -/
theorem interpolation_exact_unique_line : evalAt (lagrangeInterpolate [⟨⟨0⟩, ⟨5⟩⟩, ⟨⟨1⟩, ⟨7⟩⟩]) ⟨1⟩ = ⟨7⟩ ∧
      evalAt (lagrangeInterpolate ([⟨3⟩, ⟨2⟩].map fun node => ⟨node, evalAt [⟨5⟩, ⟨2⟩] node⟩)) ⟨9⟩ =
        evalAt [⟨5⟩, ⟨2⟩] ⟨9⟩ := by
  refine ⟨?_, ?_⟩
  · exact (interpolation_exact_unique.1 [⟨⟨0⟩, ⟨5⟩⟩, ⟨⟨1⟩, ⟨7⟩⟩] (by decide) (by decide)).2 ⟨⟨1⟩, ⟨7⟩⟩ (by decide)
  · exact interpolation_exact_unique.2 [⟨5⟩, ⟨2⟩] [⟨3⟩, ⟨2⟩] (by decide) (by decide) ⟨9⟩

/-! ## Messages as values of polynomials -/

lemma toNat_ofBe16 (hi lo : UInt8) : (ofBe16 hi lo).toNat = hi.toNat * 256 + lo.toNat := by
  have hlo : lo.toNat < 2 ^ 8 := lo.toNat_lt
  have hhi : hi.toNat < 2 ^ 8 := hi.toNat_lt
  have hsh : (hi.toUInt16 <<< 8).toNat = hi.toNat <<< 8 := by
    simp [UInt16.toNat_shiftLeft, Nat.shiftLeft_eq]
    omega
  rw [ofBe16, UInt16.toNat_or, hsh, UInt8.toNat_toUInt16, ← Nat.shiftLeft_add_eq_or_of_lt hlo, Nat.shiftLeft_eq]

@[simp] lemma ofBe16_be16 (v : UInt16) : ofBe16 (be16 v).1 (be16 v).2 = v := by
  have hv : v.toNat < 2 ^ 16 := v.toNat_lt
  apply UInt16.toNat_inj.mp
  rw [toNat_ofBe16]
  simp [be16, UInt16.toNat_shiftRight, Nat.shiftRight_eq_div_pow]
  omega

@[simp] lemma be16_ofBe16 (hi lo : UInt8) : be16 (ofBe16 hi lo) = (hi, lo) := by
  have hlo : lo.toNat < 2 ^ 8 := lo.toNat_lt
  have hhi : hi.toNat < 2 ^ 8 := hi.toNat_lt
  have hv := toNat_ofBe16 hi lo
  refine Prod.ext (UInt8.toNat_inj.mp ?_) (UInt8.toNat_inj.mp ?_)
  · simp [be16, UInt16.toNat_shiftRight, Nat.shiftRight_eq_div_pow, hv]
    omega
  · simp [be16, hv]

def necessaryPoints (n p : Nat) : Nat :=
  if p < n % numPolys then n / numPolys + 1 else n / numPolys

lemma lt_necessaryPoints {n p j : Nat} (hp : p < 16) : j < necessaryPoints n p ↔ 16 * j + p < n := by
  have hn : numPolys = 16 := rfl
  rw [necessaryPoints, hn]
  by_cases hrem : p < n % 16
  · rw [if_pos hrem]; omega
  · rw [if_neg hrem]; omega

def msgValue (msg : Bytes) (i : Nat) : GF16 :=
  ⟨ofBe16 (msg.getD (i * 2) 0) (msg.getD (i * 2 + 1) 0)⟩

def xAt (i : Nat) : GF16 := ⟨i.toUInt16⟩

lemma xAt_inj {i j : Nat} (hi : i < 65536) (hj : j < 65536) (h : xAt i = xAt j) : i = j := by
  have hval : i.toUInt16 = j.toUInt16 := congrArg GF16.value h
  have hnat := congrArg UInt16.toNat hval
  simpa [Nat.mod_eq_of_lt hi, Nat.mod_eq_of_lt hj] using hnat

/-- A message the code can carry: whole 16-bit values, and few enough of them that the indices of one
slot are distinct field elements. -/
structure Payload where
  bytes : Bytes
  even : bytes.length % 2 = 0
  short : bytes.length ≤ 2 ^ 21

namespace Payload

def count (m : Payload) : Nat := m.bytes.length / 2

def need (m : Payload) (p : Fin 16) : Nat := necessaryPoints m.count p

def slotValue (m : Payload) (p : Fin 16) (j : Nat) : GF16 := msgValue m.bytes (16 * j + p)

noncomputable def msgPoly (m : Payload) (p : Fin 16) : GF16[X] :=
  Lagrange.interpolate (Finset.range (m.need p)) xAt (m.slotValue p)

lemma need_le (m : Payload) (p : Fin 16) : m.need p ≤ 65536 := by
  by_contra hgt
  have hlt := (lt_necessaryPoints p.isLt).mp (Nat.lt_of_not_le hgt)
  have hs := m.short
  rw [count] at hlt
  omega

lemma injOn_xAt (m : Payload) (p : Fin 16) : Set.InjOn xAt (Finset.range (m.need p)) := by
  intro i hi j hj h
  have hle := m.need_le p
  have hi' : i < m.need p := Finset.mem_range.mp hi
  have hj' : j < m.need p := Finset.mem_range.mp hj
  exact xAt_inj (by omega) (by omega) h

lemma msgPoly_degree (m : Payload) (p : Fin 16) : (m.msgPoly p).degree < m.need p := by
  have h := Lagrange.degree_interpolate_lt (m.slotValue p) (m.injOn_xAt p)
  rwa [Finset.card_range] at h

lemma msgPoly_eval (m : Payload) (p : Fin 16) {j : Nat} (hj : j < m.need p) :
    (m.msgPoly p).eval (xAt j) = m.slotValue p j :=
  Lagrange.eval_interpolate_at_node (m.slotValue p) (m.injOn_xAt p) (Finset.mem_range.mpr hj)

end Payload

end LibSignal.Chunked
