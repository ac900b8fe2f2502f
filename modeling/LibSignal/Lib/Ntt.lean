import LibSignal.Lib.CoeffList

/-!
# Transforms by halving

A list of coefficients is cut into blocks of one length. Block number `b` stands for the residue of a
polynomial modulo `X ^ m - c b` (`Residues`).
-/

namespace LibSignal.Lib
open Polynomial

section Lists
variable {R : Type*} [CommRing R]

lemma ofCoeffs_append (f g : List R) : ofCoeffs (f ++ g) = ofCoeffs f + X ^ f.length * ofCoeffs g := by
  induction f with
  | nil => simp
  | cons a f ih =>
    rw [List.cons_append, ofCoeffs_cons, ih, ofCoeffs_cons, List.length_cons, pow_succ]
    ring

variable {f g : List R}

lemma ofCoeffs_zipWith_scaled (zeta : R) (h : f.length = g.length) :
    ofCoeffs (List.zipWith (fun a b => a + zeta * b) f g) = ofCoeffs f + C zeta * ofCoeffs g := by
  induction f generalizing g with
  | nil =>
    rw [List.eq_nil_of_length_eq_zero h.symm]
    simp
  | cons a f ih =>
    cases g with
    | nil => simp at h
    | cons b g =>
      rw [List.zipWith_cons_cons, ofCoeffs_cons, ih (by simpa using h), ofCoeffs_cons, ofCoeffs_cons, C_add, C_mul]
      ring

lemma ofCoeffs_zipWith_add (h : f.length = g.length) :
    ofCoeffs (List.zipWith (fun a b => a + b) f g) = ofCoeffs f + ofCoeffs g := by
  have hone := ofCoeffs_zipWith_scaled 1 h
  simpa only [one_mul, map_one] using hone

lemma ofCoeffs_inj (hlen : f.length = g.length) (h : ofCoeffs f = ofCoeffs g) : f = g := by
  refine List.ext_getElem hlen fun i hf hg => ?_
  have hcoeff := congrArg (fun P => P.coeff i) h
  simp only [coeff_ofCoeffs] at hcoeff
  rwa [List.getD_eq_getElem _ _ hf, List.getD_eq_getElem _ _ hg] at hcoeff

end Lists

lemma zipWith_zipWith_same {α β γ δ ε : Type*} (h : γ → δ → ε) (u : α → β → γ) (v : α → β → δ) (f : List α)
    (g : List β) :
    List.zipWith h (List.zipWith u f g) (List.zipWith v f g) = List.zipWith (fun a b => h (u a b) (v a b)) f g := by
  induction f generalizing g with
  | nil => rfl
  | cons a f ih =>
    cases g with
    | nil => rfl
    | cons b g => rw [List.zipWith_cons_cons, List.zipWith_cons_cons, List.zipWith_cons_cons, List.zipWith_cons_cons, ih]

lemma zipWith_fst {α β γ : Type*} (u : α → γ) {f : List α} {g : List β} (h : f.length = g.length) :
    List.zipWith (fun a _ => u a) f g = f.map u := by
  induction f generalizing g with
  | nil => rfl
  | cons a f ih =>
    cases g with
    | nil => simp at h
    | cons b g => rw [List.zipWith_cons_cons, List.map_cons, ih (by simpa using h)]

lemma zipWith_snd {α β γ : Type*} (u : β → γ) {f : List α} {g : List β} (h : f.length = g.length) :
    List.zipWith (fun _ b => u b) f g = g.map u := by
  rw [List.zipWith_comm]
  exact zipWith_fst u h.symm

/-! ## Layers -/

section Layers
variable {R : Type*} [CommRing R]

def splitBlock (zeta : R) (lo hi : List R) : List R :=
  List.zipWith (fun a b => a + zeta * b) lo hi ++ List.zipWith (fun a b => a - zeta * b) lo hi

def joinBlock (zeta : R) (lo hi : List R) : List R :=
  List.zipWith (fun a b => a + b) lo hi ++ List.zipWith (fun a b => zeta * (b - a)) lo hi

def splitLayer (zeta : Nat → R) (m : Nat) : Nat → Nat → List R → List R
  | 0, _, f => f
  | blocks + 1, kk, f =>
    splitBlock (zeta kk) (f.take m) ((f.drop m).take m) ++ splitLayer zeta m blocks (kk + 1) (f.drop (m + m))

def joinLayer (zeta : Nat → R) (m : Nat) : Nat → Nat → List R → List R
  | 0, _, f => f
  | blocks + 1, kk, f =>
    joinBlock (zeta kk) (f.take m) ((f.drop m).take m) ++ joinLayer zeta m blocks (kk - 1) (f.drop (m + m))

def splitLayers (zeta : Nat → R) : Nat → Nat → Nat → Nat → List R → List R
  | 0, _, _, _, f => f
  | rounds + 1, m, blocks, kk, f =>
    splitLayers zeta rounds (m / 2) (2 * blocks) (kk + blocks) (splitLayer zeta m blocks kk f)

def joinLayers (zeta : Nat → R) : Nat → Nat → Nat → Nat → List R → List R
  | 0, _, _, _, f => f
  | rounds + 1, m, blocks, kk, f =>
    joinLayers zeta rounds (2 * m) (blocks / 2) (kk - blocks) (joinLayer zeta m blocks kk f)

lemma exists_block {α : Type*} {m blocks : Nat} {f : List α} (h : (blocks + 1) * (2 * m) ≤ f.length) :
    ∃ lo hi rest, f = lo ++ (hi ++ rest) ∧ lo.length = m ∧ hi.length = m ∧ blocks * (2 * m) ≤ rest.length := by
  have htotal : blocks * (2 * m) + 2 * m ≤ f.length := by rwa [Nat.succ_mul] at h
  refine ⟨f.take m, (f.drop m).take m, (f.drop m).drop m, ?_, ?_, ?_, ?_⟩
  · rw [List.take_append_drop, List.take_append_drop]
  · rw [List.length_take]
    omega
  · rw [List.length_take, List.length_drop]
    omega
  · rw [List.length_drop, List.length_drop]
    omega

lemma exists_block_eq {α : Type*} {m blocks : Nat} {f : List α} (h : f.length = (blocks + 1) * (2 * m)) :
    ∃ lo hi rest, f = lo ++ (hi ++ rest) ∧ lo.length = m ∧ hi.length = m ∧ rest.length = blocks * (2 * m) := by
  obtain ⟨lo, hi, rest, rfl, hlo, hhi, -⟩ := exists_block h.ge
  refine ⟨lo, hi, rest, rfl, hlo, hhi, ?_⟩
  rw [List.length_append, List.length_append, hlo, hhi, Nat.succ_mul] at h
  omega

variable {zeta : Nat → R} {m blocks kk : Nat} {lo hi rest : List R}

lemma splitLayer_append (hlo : lo.length = m) (hhi : hi.length = m) :
    splitLayer zeta m (blocks + 1) kk (lo ++ (hi ++ rest)) =
      splitBlock (zeta kk) lo hi ++ splitLayer zeta m blocks (kk + 1) rest := by
  subst hlo
  rw [splitLayer, List.take_left, List.drop_left, ← hhi, List.take_left, ← List.drop_drop, hhi, List.drop_left, ← hhi,
    List.drop_left]

lemma joinLayer_append (hlo : lo.length = m) (hhi : hi.length = m) :
    joinLayer zeta m (blocks + 1) kk (lo ++ (hi ++ rest)) =
      joinBlock (zeta kk) lo hi ++ joinLayer zeta m blocks (kk - 1) rest := by
  subst hlo
  rw [joinLayer, List.take_left, List.drop_left, ← hhi, List.take_left, ← List.drop_drop, hhi, List.drop_left, ← hhi,
    List.drop_left]

lemma length_splitBlock (z : R) (hlo : lo.length = m) (hhi : hi.length = m) :
    (splitBlock z lo hi).length = 2 * m := by
  rw [splitBlock, List.length_append, List.length_zipWith, List.length_zipWith, hlo, hhi]
  omega

lemma length_joinBlock (z : R) (hlo : lo.length = m) (hhi : hi.length = m) :
    (joinBlock z lo hi).length = 2 * m := by
  rw [joinBlock, List.length_append, List.length_zipWith, List.length_zipWith, hlo, hhi]
  omega

variable {f : List R} {rounds : Nat}

lemma length_splitLayer (h : blocks * (2 * m) ≤ f.length) :
    (splitLayer zeta m blocks kk f).length = f.length := by
  induction blocks generalizing kk f with
  | zero => rfl
  | succ blocks ih =>
    obtain ⟨lo, hi, rest, rfl, hlo, hhi, hrest⟩ := exists_block h
    rw [splitLayer_append hlo hhi, List.length_append, length_splitBlock _ hlo hhi, ih hrest, List.length_append,
      List.length_append, hlo, hhi]
    ring

lemma length_joinLayer (h : blocks * (2 * m) ≤ f.length) : (joinLayer zeta m blocks kk f).length = f.length := by
  induction blocks generalizing kk f with
  | zero => rfl
  | succ blocks ih =>
    obtain ⟨lo, hi, rest, rfl, hlo, hhi, hrest⟩ := exists_block h
    rw [joinLayer_append hlo hhi, List.length_append, length_joinBlock _ hlo hhi, ih hrest, List.length_append,
      List.length_append, hlo, hhi]
    ring

lemma length_splitLayers (h : blocks * (2 * m) ≤ f.length) :
    (splitLayers zeta rounds m blocks kk f).length = f.length := by
  induction rounds generalizing m blocks kk f with
  | zero => rfl
  | succ rounds ih =>
    have hnext : 2 * blocks * (2 * (m / 2)) ≤ f.length := by
      refine le_trans ?_ h
      rw [mul_comm 2 blocks, mul_assoc]
      exact Nat.mul_le_mul_left _ (by omega)
    rw [splitLayers, ih, length_splitLayer h]
    rw [length_splitLayer h]
    exact hnext

lemma length_joinLayers (h : blocks * (2 * m) ≤ f.length) :
    (joinLayers zeta rounds m blocks kk f).length = f.length := by
  induction rounds generalizing m blocks kk f with
  | zero => rfl
  | succ rounds ih =>
    have hnext : blocks / 2 * (2 * (2 * m)) ≤ f.length := by
      refine le_trans ?_ h
      rw [← mul_assoc]
      exact Nat.mul_le_mul_right _ (by omega)
    rw [joinLayers, ih, length_joinLayer h]
    rw [length_joinLayer h]
    exact hnext

/-! ## Joining undoes splitting -/

lemma joinBlock_map (z c : R) (lo hi : List R) :
    joinBlock z (lo.map (c * ·)) (hi.map (c * ·)) = (joinBlock z lo hi).map (c * ·) := by
  rw [joinBlock, joinBlock, List.map_append, List.map_zipWith, List.map_zipWith, List.zipWith_map, List.zipWith_map]
  congr 2
  · funext a b
    ring
  · funext a b
    ring

lemma joinLayer_map (c : R) :
    joinLayer zeta m blocks kk (f.map (c * ·)) = (joinLayer zeta m blocks kk f).map (c * ·) := by
  induction blocks generalizing kk f with
  | zero => rfl
  | succ blocks ih =>
    rw [joinLayer, joinLayer, ← List.map_take, ← List.map_drop, ← List.map_take, ← List.map_drop, joinBlock_map, ih,
      List.map_append]

lemma joinBlock_splitBlock {z w : R} (h : w * z = -1) (hlo : lo.length = m) (hhi : hi.length = m) :
    joinBlock w (List.zipWith (fun a b => a + z * b) lo hi) (List.zipWith (fun a b => a - z * b) lo hi) =
      (lo ++ hi).map (2 * ·) := by
  have hsum : (fun a b : R => a + z * b + (a - z * b)) = fun a _ => 2 * a := by
    funext a b
    ring
  have hdifference : (fun a b : R => w * (a - z * b - (a + z * b))) = fun _ b => 2 * b := by
    funext a b
    linear_combination (-2 * b) * h
  rw [joinBlock, zipWith_zipWith_same, zipWith_zipWith_same, hsum, hdifference, zipWith_fst _ (hlo.trans hhi.symm),
    zipWith_snd _ (hlo.trans hhi.symm), List.map_append]

lemma joinLayer_splitLayer {ll : Nat} (hlen : f.length = blocks * (2 * m))
    (h : ∀ b < blocks, zeta (ll - b) * zeta (kk + b) = -1) :
    joinLayer zeta m blocks ll (splitLayer zeta m blocks kk f) = f.map (2 * ·) := by
  induction blocks generalizing kk ll f with
  | zero =>
    rw [List.eq_nil_of_length_eq_zero (hlen.trans (Nat.zero_mul _))]
    rfl
  | succ blocks ih =>
    obtain ⟨lo, hi, rest, rfl, hlo, hhi, hrest⟩ := exists_block_eq hlen
    have hroot : zeta ll * zeta kk = -1 := h 0 (by omega)
    have hnext : ∀ b < blocks, zeta (ll - 1 - b) * zeta (kk + 1 + b) = -1 := by
      intro b hb
      have hlater := h (b + 1) (by omega)
      rwa [show ll - (b + 1) = ll - 1 - b by omega, show kk + (b + 1) = kk + 1 + b by omega] at hlater
    rw [splitLayer_append hlo hhi, splitBlock, List.append_assoc, joinLayer_append, ih hrest hnext,
      joinBlock_splitBlock hroot hlo hhi, ← List.map_append, List.append_assoc]
    · rw [List.length_zipWith, hlo, hhi, Nat.min_self]
    · rw [List.length_zipWith, hlo, hhi, Nat.min_self]

lemma joinLayers_step (zeta : Nat → R) (rounds m blocks kk : Nat) (f : List R) :
    joinLayers zeta (rounds + 1) m blocks kk f =
      joinLayers zeta rounds (2 * m) (blocks / 2) (kk - blocks) (joinLayer zeta m blocks kk f) := rfl

lemma joinLayers_succ (zeta : Nat → R) (rounds m blocks : Nat) (f : List R) :
    joinLayers zeta (rounds + 1) m (2 ^ rounds * blocks) (2 ^ (rounds + 1) * blocks - 1) f =
      joinLayer zeta (2 ^ rounds * m) blocks (2 * blocks - 1)
        (joinLayers zeta rounds m (2 ^ rounds * blocks) (2 ^ (rounds + 1) * blocks - 1) f) := by
  induction rounds generalizing m f with
  | zero => simp [joinLayers]
  | succ rounds ih =>
    have hhalf : 2 ^ (rounds + 1) * blocks / 2 = 2 ^ rounds * blocks := by
      rw [pow_succ, mul_right_comm, Nat.mul_div_cancel _ (by decide)]
    have hdown : 2 ^ (rounds + 1 + 1) * blocks - 1 - 2 ^ (rounds + 1) * blocks = 2 ^ (rounds + 1) * blocks - 1 := by
      rw [pow_succ 2 (rounds + 1), mul_right_comm]
      omega
    rw [joinLayers_step zeta (rounds + 1), hhalf, hdown, ih (2 * m), joinLayers_step zeta rounds, hhalf, hdown,
      ← mul_assoc, ← pow_succ]

lemma joinLayers_splitLayers (hpos : 0 < blocks) (hlen : f.length = blocks * (2 * 2 ^ rounds))
    (h : ∀ e < rounds, ∀ b < 2 ^ e * blocks, zeta (2 * (2 ^ e * blocks) - 1 - b) * zeta (2 ^ e * blocks + b) = -1) :
    joinLayers zeta rounds 2 (2 ^ rounds * blocks / 2) (2 ^ rounds * blocks - 1)
      (splitLayers zeta rounds (2 ^ rounds) blocks blocks f) = f.map (2 ^ rounds * ·) := by
  induction rounds generalizing blocks f with
  | zero => simp [joinLayers, splitLayers]
  | succ rounds ih =>
    have hmid : (splitLayer zeta (2 ^ (rounds + 1)) blocks blocks f).length = 2 * blocks * (2 * 2 ^ rounds) := by
      rw [length_splitLayer hlen.ge, hlen, pow_succ]
      ring
    have hnext : ∀ e < rounds, ∀ b < 2 ^ e * (2 * blocks),
        zeta (2 * (2 ^ e * (2 * blocks)) - 1 - b) * zeta (2 ^ e * (2 * blocks) + b) = -1 := by
      intro e he b hb
      have hroot := h (e + 1) (by omega)
      rw [pow_succ, mul_assoc] at hroot
      exact hroot b hb
    have hinner := ih (Nat.mul_pos Nat.two_pos hpos) hmid hnext
    rw [← mul_assoc, ← pow_succ] at hinner
    have hhalf : 2 ^ (rounds + 1) * blocks / 2 = 2 ^ rounds * blocks := by
      rw [pow_succ, mul_right_comm, Nat.mul_div_cancel _ (by decide)]
    have hfirst := h 0 (by omega)
    rw [pow_zero, one_mul] at hfirst
    have hsplit : splitLayers zeta (rounds + 1) (2 ^ (rounds + 1)) blocks blocks f =
        splitLayers zeta rounds (2 ^ rounds) (2 * blocks) (2 * blocks)
          (splitLayer zeta (2 ^ (rounds + 1)) blocks blocks f) := by
      rw [splitLayers, pow_succ, Nat.mul_div_cancel _ (by decide), ← two_mul]
    rw [hhalf] at hinner ⊢
    rw [joinLayers_succ, hsplit, hinner, joinLayer_map, ← pow_succ, joinLayer_splitLayer hlen hfirst, List.map_map]
    congr 1
    funext a
    simp only [Function.comp_apply, pow_succ]
    ring

end Layers

/-! ## Residues -/

section Residues
variable {R : Type*} [CommRing R] {c zeta : Nat → R} {m blocks kk : Nat} {P Q : R[X]} {f g : List R}

noncomputable def blockModulus (m : Nat) (a : R) : R[X] := X ^ m - C a

lemma blockModulus_monic (hm : 0 < m) (a : R) : (blockModulus m a).Monic := monic_X_pow_sub_C a hm.ne'

lemma degree_blockModulus [Nontrivial R] (hm : 0 < m) (a : R) : (blockModulus m a).degree = m :=
  degree_X_pow_sub_C hm a

variable {d : R}

lemma blockModulus_dvd {z : R} (hz : z ^ 2 = d) (m : Nat) : blockModulus m z ∣ blockModulus (2 * m) d := by
  refine ⟨X ^ m + C z, ?_⟩
  rw [blockModulus, blockModulus, ← hz, C_pow]
  ring

/-- The blocks of length `m` of a list are residues of `P`, modulo `X ^ m - c kk` and so on. -/
def Residues (c : Nat → R) (m : Nat) (P : R[X]) : Nat → Nat → List R → Prop
  | 0, _, _ => True
  | blocks + 1, kk, f =>
    blockModulus m (c kk) ∣ P - ofCoeffs (f.take m) ∧ Residues c m P blocks (kk + 1) (f.drop m)

lemma Residues.cons {block : List R} (hlen : block.length = m) (h : blockModulus m (c kk) ∣ P - ofCoeffs block)
    (hrest : Residues c m P blocks (kk + 1) f) : Residues c m P (blocks + 1) kk (block ++ f) := by
  subst hlen
  refine ⟨?_, ?_⟩
  · rwa [List.take_left]
  · rwa [List.drop_left]

lemma Residues.uncons {block : List R} (hlen : block.length = m)
    (h : Residues c m P (blocks + 1) kk (block ++ f)) :
    blockModulus m (c kk) ∣ P - ofCoeffs block ∧ Residues c m P blocks (kk + 1) f := by
  subst hlen
  rw [Residues, List.take_left, List.drop_left] at h
  exact h

/-- The roots of the constants of some blocks, and the constants of the blocks these split into. -/
structure Roots (c zeta : Nat → R) (b : Nat) : Prop where
  square : zeta b ^ 2 = c b
  even : c (2 * b) = zeta b
  odd : c (2 * b + 1) = -zeta b

lemma dvd_of_split {z : R} {lo hi : List R} (hz : z ^ 2 = d) (hlo : lo.length = m) (hhi : hi.length = m)
    (h : blockModulus (2 * m) d ∣ P - ofCoeffs (lo ++ hi)) :
    blockModulus m z ∣ P - ofCoeffs (List.zipWith (fun a b => a + z * b) lo hi) := by
  have hdiff : P - ofCoeffs (List.zipWith (fun a b => a + z * b) lo hi) =
      P - ofCoeffs (lo ++ hi) + blockModulus m z * ofCoeffs hi := by
    rw [ofCoeffs_zipWith_scaled z (hlo.trans hhi.symm), ofCoeffs_append, hlo, blockModulus]
    ring
  rw [hdiff]
  exact dvd_add ((blockModulus_dvd hz m).trans h) (dvd_mul_right _ _)

lemma Residues.splitLayer (hroots : ∀ b, kk ≤ b → b < kk + blocks → Roots c zeta b)
    (hlen : f.length = blocks * (2 * m)) (h : Residues c (2 * m) P blocks kk f) :
    Residues c m P (2 * blocks) (2 * kk) (splitLayer zeta m blocks kk f) := by
  induction blocks generalizing kk f with
  | zero => trivial
  | succ blocks ih =>
    obtain ⟨lo, hi, rest, rfl, hlo, hhi, hrest⟩ := exists_block_eq hlen
    rw [← List.append_assoc] at h
    have hblock : (lo ++ hi).length = 2 * m := by
      rw [List.length_append, hlo, hhi]
      ring
    obtain ⟨hhead, htail⟩ := h.uncons hblock
    have hroot := hroots kk le_rfl (by omega)
    have hplus := dvd_of_split hroot.square hlo hhi hhead
    have hminus := dvd_of_split (z := -zeta kk) (by rw [neg_sq, hroot.square]) hlo hhi hhead
    have hnext := ih (fun b hb hlt => hroots b (by omega) (by omega)) hrest htail
    have hzip : (fun a b : R => a + -zeta kk * b) = fun a b => a - zeta kk * b := by
      funext a b
      ring
    rw [splitLayer_append hlo hhi, splitBlock, List.append_assoc, show 2 * (blocks + 1) = 2 * blocks + 1 + 1 by ring]
    refine Residues.cons ?_ ?_ (Residues.cons ?_ ?_ ?_)
    · rw [List.length_zipWith, hlo, hhi, Nat.min_self]
    · rwa [hroot.even]
    · rw [List.length_zipWith, hlo, hhi, Nat.min_self]
    · rw [hroot.odd, ← hzip]
      exact hminus
    · exact hnext

lemma Residues.splitLayers {rounds : Nat} (hlen : f.length = blocks * (2 * 2 ^ rounds))
    (hroots : ∀ b, blocks ≤ b → b < 2 ^ rounds * blocks → Roots c zeta b)
    (h : Residues c (2 * 2 ^ rounds) P blocks blocks f) :
    Residues c 2 P (2 ^ rounds * blocks) (2 ^ rounds * blocks)
      (splitLayers zeta rounds (2 ^ rounds) blocks blocks f) := by
  induction rounds generalizing blocks f with
  | zero =>
    rw [pow_zero, one_mul]
    exact h
  | succ rounds ih =>
    have hgrow : 2 ^ (rounds + 1) * blocks = 2 ^ rounds * (2 * blocks) := by
      rw [pow_succ, mul_assoc]
    have hle : blocks + blocks ≤ 2 ^ rounds * (2 * blocks) := by
      rw [← two_mul]
      exact Nat.le_mul_of_pos_left _ (by positivity)
    have hlayer := h.splitLayer (fun b hb hlt => hroots b hb (by omega)) hlen
    have hmid : (LibSignal.Lib.splitLayer zeta (2 ^ (rounds + 1)) blocks blocks f).length =
        2 * blocks * (2 * 2 ^ rounds) := by
      rw [length_splitLayer hlen.ge, hlen, pow_succ]
      ring
    rw [LibSignal.Lib.splitLayers, hgrow, ← two_mul, pow_succ, Nat.mul_div_cancel _ (by decide), ← pow_succ]
    refine ih hmid (fun b hb hlt => hroots b (by omega) (by omega)) ?_
    rwa [pow_succ, mul_comm (2 ^ rounds) 2] at hlayer ⊢

lemma Residues.unique [Nontrivial R] (hm : 0 < m) (hf : f.length = blocks * m) (hg : g.length = blocks * m)
    (h : Residues c m P blocks kk f) (h' : Residues c m P blocks kk g) : f = g := by
  induction blocks generalizing kk f g with
  | zero =>
    rw [List.eq_nil_of_length_eq_zero (hf.trans (Nat.zero_mul _)),
      List.eq_nil_of_length_eq_zero (hg.trans (Nat.zero_mul _))]
  | succ blocks ih =>
    rw [Nat.succ_mul] at hf hg
    have hdvd : blockModulus m (c kk) ∣ ofCoeffs (g.take m) - ofCoeffs (f.take m) := by
      have hsub := dvd_sub h.1 h'.1
      rwa [sub_sub_sub_cancel_left] at hsub
    have hdegree : ∀ l : List R, (ofCoeffs (l.take m)).degree < (blockModulus m (c kk)).degree := by
      intro l
      rw [degree_blockModulus hm]
      refine (degree_ofCoeffs_lt _).trans_le ?_
      exact_mod_cast List.length_take_le m l
    have hzero : ofCoeffs (g.take m) - ofCoeffs (f.take m) = 0 := by
      by_contra hne
      refine (blockModulus_monic hm (c kk)).not_dvd_of_degree_lt hne ?_ hdvd
      exact (degree_sub_le _ _).trans_lt (max_lt (hdegree g) (hdegree f))
    have hhead : f.take m = g.take m := by
      refine ofCoeffs_inj ?_ (sub_eq_zero.mp hzero).symm
      rw [List.length_take, List.length_take, hf, hg]
    have htail : f.drop m = g.drop m := by
      refine ih ?_ ?_ h.2 h'.2
      · rw [List.length_drop, hf]
        omega
      · rw [List.length_drop, hg]
        omega
    rw [← List.take_append_drop m f, hhead, htail, List.take_append_drop]

lemma Residues.add (hlen : f.length = g.length) (h : Residues c m P blocks kk f)
    (h' : Residues c m Q blocks kk g) :
    Residues c m (P + Q) blocks kk (List.zipWith (fun a b => a + b) f g) := by
  induction blocks generalizing kk f g with
  | zero => trivial
  | succ blocks ih =>
    refine ⟨?_, ?_⟩
    · rw [List.take_zipWith, ofCoeffs_zipWith_add (by rw [List.length_take, List.length_take, hlen]),
        add_sub_add_comm]
      exact dvd_add h.1 h'.1
    · rw [List.drop_zipWith]
      exact ih (by rw [List.length_drop, List.length_drop, hlen]) h.2 h'.2

lemma exists_pair {α : Type*} {blocks : Nat} {f : List α} (h : f.length = (blocks + 1) * 2) :
    ∃ a b rest, f = a :: b :: rest ∧ rest.length = blocks * 2 := by
  cases f with
  | nil => simp at h
  | cons a f =>
    cases f with
    | nil =>
      rw [List.length_singleton] at h
      omega
    | cons b rest =>
      refine ⟨a, b, rest, rfl, ?_⟩
      rw [List.length_cons, List.length_cons] at h
      omega

def mulPairs (gamma : Nat → R) : Nat → List R → List R → List R
  | i, a0 :: a1 :: f, b0 :: b1 :: g =>
    (a0 * b0 + a1 * b1 * gamma i) :: (a0 * b1 + a1 * b0) :: mulPairs gamma (i + 1) f g
  | _, _, _ => []

lemma dvd_mul_pair {a0 a1 b0 b1 : R} (ha : blockModulus 2 d ∣ P - ofCoeffs [a0, a1])
    (hb : blockModulus 2 d ∣ Q - ofCoeffs [b0, b1]) :
    blockModulus 2 d ∣ P * Q - ofCoeffs [a0 * b0 + a1 * b1 * d, a0 * b1 + a1 * b0] := by
  have hsplit : P * Q - ofCoeffs [a0 * b0 + a1 * b1 * d, a0 * b1 + a1 * b0] =
      (P - ofCoeffs [a0, a1]) * Q + ofCoeffs [a0, a1] * (Q - ofCoeffs [b0, b1]) +
        blockModulus 2 d * (C a1 * C b1) := by
    simp only [blockModulus, ofCoeffs_cons, ofCoeffs_nil, mul_zero, add_zero, map_add, map_mul]
    ring
  rw [hsplit]
  refine dvd_add (dvd_add ?_ ?_) (dvd_mul_right _ _)
  · exact ha.mul_right _
  · exact hb.mul_left _

lemma Residues.mulPairs {gamma : Nat → R} {i : Nat} (hgamma : ∀ b < blocks, gamma (i + b) = c (kk + b))
    (hf : f.length = blocks * 2) (hg : g.length = blocks * 2) (h : Residues c 2 P blocks kk f)
    (h' : Residues c 2 Q blocks kk g) : Residues c 2 (P * Q) blocks kk (mulPairs gamma i f g) := by
  induction blocks generalizing kk i f g with
  | zero => trivial
  | succ blocks ih =>
    obtain ⟨a0, a1, f, rfl, hf'⟩ := exists_pair hf
    obtain ⟨b0, b1, g, rfl, hg'⟩ := exists_pair hg
    have hconst : gamma i = c kk := hgamma 0 (by omega)
    rw [LibSignal.Lib.mulPairs, hconst]
    refine ⟨dvd_mul_pair h.1 h'.1, ih ?_ hf' hg' h.2 h'.2⟩
    intro b hb
    have hlater := hgamma (b + 1) (by omega)
    rwa [← add_assoc, ← add_assoc, add_right_comm, add_right_comm kk] at hlater

lemma length_mulPairs {gamma : Nat → R} {i : Nat} (hf : f.length = blocks * 2) (hg : g.length = blocks * 2) :
    (mulPairs gamma i f g).length = blocks * 2 := by
  induction blocks generalizing i f g with
  | zero =>
    rw [List.eq_nil_of_length_eq_zero hf]
    rfl
  | succ blocks ih =>
    obtain ⟨a0, a1, f, rfl, hf'⟩ := exists_pair hf
    obtain ⟨b0, b1, g, rfl, hg'⟩ := exists_pair hg
    rw [LibSignal.Lib.mulPairs, List.length_cons, List.length_cons, ih hf' hg']
    omega

end Residues

end LibSignal.Lib
