import LibSignal.Chunked.Polynomial

/-!
# The erasure code of the chunk transport

Model of the encoder and decoder of `internal/spqr/chunked/polynomial.go`. Chunk `idx` carries the value of
every slot's polynomial at `idx`.
-/

namespace LibSignal.Chunked
open Polynomial Lib

/-! ## Encoder -/

structure Encoder where
  values : Fin 16 → List GF16
  polys : Fin 16 → List GF16
  idx : UInt16
  switched : Bool

def dealValue (msg : Bytes) (values : Fin 16 → List GF16) (i : Nat) : Fin 16 → List GF16 :=
  Function.update values (Fin.ofNat 16 i) (values (Fin.ofNat 16 i) ++ [msgValue msg i])

def newEncoder (msg : Bytes) : Except ChunkErr Encoder :=
  if msg.length % 2 ≠ 0 then .error .oddLength
  else .ok
    { values := (List.range (msg.length / 2)).foldl (dealValue msg) (fun _ => [])
      polys := fun _ => []
      idx := 0
      switched := false }

namespace Encoder

def points (values : List GF16) : List Pt :=
  values.zipIdx.map fun yj => ⟨xAt yj.2, yj.1⟩

def switch (e : Encoder) : Encoder :=
  { e with polys := fun q => lagrangeInterpolate (points (e.values q)), switched := true }

def pointAt (e : Encoder) (p : Fin 16) (idx : Nat) : GF16 × Encoder :=
  if !e.switched && decide (idx < (e.values p).length) then ((e.values p).getD idx 0, e)
  else
    let e' := if e.switched then e else e.switch
    (evalAt (e'.polys p) (xAt idx), e')

def pointsAt (idx : Nat) : List (Fin 16) → Encoder → List GF16 × Encoder
  | [], e => ([], e)
  | p :: ps, e =>
    let (v, e1) := e.pointAt p idx
    let (vs, e2) := pointsAt idx ps e1
    (v :: vs, e2)

def packValues (vs : List GF16) : Vector UInt8 32 :=
  Vector.ofFn fun k =>
    let v := (vs.getD (k / 2) 0).value
    if k.val % 2 = 0 then (be16 v).1 else (be16 v).2

def chunkAt (e : Encoder) (idx : UInt16) : Chunk × Encoder :=
  let (vs, e') := pointsAt idx.toNat (List.finRange 16) e
  (⟨idx, packValues vs⟩, e')

/-- The next chunk in sequence; the index wraps at `2^16`. -/
def nextChunk (e : Encoder) : Chunk × Encoder :=
  let (c, e') := e.chunkAt e.idx
  (c, { e' with idx := e'.idx + 1 })

end Encoder

def Chunk.slot (c : Chunk) (i : Fin 16) : GF16 :=
  ⟨ofBe16 (c.data.get ⟨2 * i, by omega⟩) (c.data.get ⟨2 * i + 1, by omega⟩)⟩

noncomputable def Payload.chunkOf (m : Payload) (idx : UInt16) : Chunk :=
  ⟨idx, Encoder.packValues ((List.finRange 16).map fun p => (m.msgPoly p).eval (xAt idx.toNat))⟩

lemma slot_packValues (idx : UInt16) (vs : List GF16) (i : Fin 16) :
    Chunk.slot ⟨idx, Encoder.packValues vs⟩ i = vs.getD i 0 := by
  have h1 : (2 * i.val) / 2 = i.val := by omega
  have h2 : (2 * i.val + 1) / 2 = i.val := by omega
  have h3 : (2 * i.val + 1) % 2 = 1 := by omega
  simp [Chunk.slot, Encoder.packValues, Vector.get_ofFn, h1, h2, h3]

lemma Payload.slot_chunkOf (m : Payload) (idx : UInt16) (i : Fin 16) :
    (m.chunkOf idx).slot i = (m.msgPoly i).eval (xAt idx.toNat) := by
  rw [chunkOf, slot_packValues, List.getD_eq_getElem _ _ (by simp), List.getElem_map, List.getElem_finRange]
  rfl

lemma foldl_dealValue (msg : Bytes) (n : Nat) (p : Fin 16) :
    (List.range n).foldl (dealValue msg) (fun _ => []) p
      = (List.range (necessaryPoints n p)).map (fun j => msgValue msg (16 * j + p)) := by
  induction n with
  | zero => simp [necessaryPoints, numPolys, chunkSize]
  | succ n ih =>
    rw [List.range_succ, List.foldl_append, List.foldl_cons, List.foldl_nil, dealValue]
    have hpl := p.isLt
    have hle : ∀ k j : Nat, j < necessaryPoints k p ↔ 16 * j + p < k :=
      fun k j => lt_necessaryPoints hpl
    by_cases hp : Fin.ofNat 16 n = p
    · -- the new value goes to this slot, at position `n / 16`
      have hmod : n % 16 = p := by rw [← hp]; rfl
      have hnew : necessaryPoints (n + 1) p = necessaryPoints n p + 1 ∧
          necessaryPoints n p = n / 16 := by
        have h1 := hle n (n / 16)
        have h2 := hle (n + 1) (n / 16)
        have h3 := hle (n + 1) (n / 16 + 1)
        have h4 := hle n (n / 16 - 1)
        omega
      rw [hp, Function.update_self, ih, hnew.1, List.range_succ, List.map_append, List.map_cons,
        List.map_nil, hnew.2, show 16 * (n / 16) + p.val = n by omega]
    · have hmod : n % 16 ≠ p := fun h => hp (Fin.ext h)
      have hsame : necessaryPoints (n + 1) p = necessaryPoints n p := by
        have h1 := hle n (necessaryPoints n p)
        have h2 := hle (n + 1) (necessaryPoints n p)
        have h3 := hle n (necessaryPoints (n + 1) p)
        have h4 := hle (n + 1) (necessaryPoints (n + 1) p)
        omega
      rw [Function.update_of_ne (Ne.symm hp), ih, hsame]

namespace Encoder

inductive Rep (m : Payload) (e : Encoder) : Prop
  | points (hs : e.switched = false)
      (hv : ∀ p, e.values p = (List.range (m.need p)).map (m.slotValue p))
  | polys (hs : e.switched = true) (hp : ∀ p, ofCoeffs (e.polys p) = m.msgPoly p)
      (hne : ∀ p, 0 < m.need p → e.polys p ≠ [])

lemma newEncoder_rep (m : Payload) : ∃ e, newEncoder m.bytes = .ok e ∧ Rep m e ∧ e.idx = 0 := by
  refine ⟨_, if_neg (by simp [m.even]), .points rfl ?_, rfl⟩
  intro p
  exact foldl_dealValue m.bytes m.count p

lemma points_slotValues (m : Payload) (p : Fin 16) : points ((List.range (m.need p)).map (m.slotValue p))
      = (List.range (m.need p)).map (fun j => ⟨xAt j, m.slotValue p j⟩) := by
  apply List.ext_getElem
  · simp [points]
  · intro i h1 h2
    simp [points]

lemma ofCoeffs_interpolate_points (m : Payload) (p : Fin 16) :
    ofCoeffs (lagrangeInterpolate (points ((List.range (m.need p)).map (m.slotValue p)))) = m.msgPoly p := by
  rw [points_slotValues, ofCoeffs_lagrangeInterpolate, List.length_map, List.length_range]
  refine interpolate_eq_of_nodes (m.msgPoly_degree p) ?_ ?_
  · intro i hi j hj h
    have hi' : i < m.need p := Finset.mem_range.mp hi
    have hj' : j < m.need p := Finset.mem_range.mp hj
    refine m.injOn_xAt p hi hj ?_
    simpa [ptX, hi', hj'] using h
  · intro i hi
    simpa [ptX, ptY, hi] using m.msgPoly_eval p hi

variable {e : Encoder} {m : Payload}

lemma switch_rep (hrep : Rep m e) (hs : e.switched = false) : Rep m e.switch := by
  cases hrep with
  | polys hs' => rw [hs] at hs'; cases hs'
  | points _ hv =>
    refine .polys rfl ?_ ?_
    · intro p
      change ofCoeffs (lagrangeInterpolate (points (e.values p))) = m.msgPoly p
      rw [hv p]
      exact ofCoeffs_interpolate_points m p
    · intro p hneed
      refine lagrangeInterpolate_ne_nil _ ?_
      rw [hv p, points_slotValues]
      simp
      omega

lemma pointAt_spec (hrep : Rep m e) (p : Fin 16) (idx : Nat) :
    ∃ e', e.pointAt p idx = ((m.msgPoly p).eval (xAt idx), e') ∧ Rep m e' ∧ e'.idx = e.idx := by
  rw [pointAt]
  by_cases hstored : (!e.switched && decide (idx < (e.values p).length)) = true
  · rw [if_pos hstored]
    cases hrep with
    | polys hs => simp [hs] at hstored
    | points hs hv =>
      have hlt : idx < m.need p := by simpa [hs, hv p] using hstored
      refine ⟨e, ?_, .points hs hv, rfl⟩
      rw [hv p, m.msgPoly_eval p hlt]
      simp [hlt]
  · rw [if_neg hstored]
    have hrep' : Rep m (if e.switched then e else e.switch) ∧
        (if e.switched then e else e.switch).switched = true := by
      cases hs : e.switched with
      | true => exact ⟨hrep, hs⟩
      | false => exact ⟨switch_rep hrep hs, rfl⟩
    refine ⟨_, ?_, hrep'.1, ?_⟩
    · cases hrep'.1 with
      | points hs => rw [hrep'.2] at hs; cases hs
      | polys _ hp => simp only [evalAt_eq, hp]
    · cases e.switched <;> rfl

lemma pointsAt_spec (idx : Nat) (ps : List (Fin 16)) (hrep : Rep m e) :
    ∃ e', pointsAt idx ps e = (ps.map (fun p => (m.msgPoly p).eval (xAt idx)), e') ∧
      Rep m e' ∧ e'.idx = e.idx := by
  induction ps generalizing e with
  | nil => exact ⟨e, rfl, hrep, rfl⟩
  | cons p ps ih =>
    obtain ⟨e1, hp, hrep1, hi1⟩ := pointAt_spec hrep p idx
    obtain ⟨e2, hps, hrep2, hi2⟩ := ih hrep1
    refine ⟨e2, ?_, hrep2, hi2.trans hi1⟩
    rw [pointsAt, hp]
    simp only [hps, List.map_cons]

lemma Rep.withIdx (hrep : Rep m e) (i : UInt16) : Rep m { e with idx := i } := by
  cases hrep with
  | points hs hv => exact .points hs hv
  | polys hs hp hne => exact .polys hs hp hne

lemma nextChunk_spec (hrep : Rep m e) :
    ∃ e', e.nextChunk = (m.chunkOf e.idx, e') ∧ Rep m e' ∧ e'.idx = e.idx + 1 := by
  obtain ⟨e', hps, hrep', hi⟩ := pointsAt_spec e.idx.toNat (List.finRange 16) hrep
  refine ⟨{ e' with idx := e'.idx + 1 }, ?_, hrep'.withIdx _, ?_⟩
  · rw [nextChunk, chunkAt, hps]
    rfl
  · rw [← hi]

end Encoder

/-! ## Decoder -/

structure Decoder where
  pointsNeeded : Nat
  pts : Fin 16 → List Pt

def Decoder.empty (msgLen : Nat) : Decoder := { pointsNeeded := msgLen / 2, pts := fun _ => [] }

def newDecoder (msgLen : Nat) : Except ChunkErr Decoder :=
  if msgLen % 2 ≠ 0 then .error .oddLength else .ok (.empty msgLen)

namespace Decoder

def pushPoint (d : Decoder) (p : Fin 16) (point : Pt) : Decoder :=
  if (d.pts p).any (fun existing => existing.x.value == point.x.value) then d
  else { d with pts := Function.update d.pts p (d.pts p ++ [point]) }

def addSlot (c : Chunk) (d : Decoder) (i : Fin 16) : Decoder :=
  let totalIdx := c.index.toNat * numPolys + i
  let p := Fin.ofNat 16 totalIdx
  let polyIdx := totalIdx / numPolys
  if polyIdx < necessaryPoints d.pointsNeeded i ∨
      (d.pts p).length < necessaryPoints d.pointsNeeded i then
    d.pushPoint p ⟨xAt polyIdx, c.slot i⟩
  else d

def addChunk (d : Decoder) (c : Chunk) : Decoder :=
  (List.finRange 16).foldl (addSlot c) d

def directPoint (d : Decoder) (p : Fin 16) (x : GF16) : Option GF16 :=
  ((d.pts p).find? fun point => point.x.value == x.value).map Pt.y

def decodedValue (d : Decoder) (i : Nat) : GF16 :=
  let p := Fin.ofNat 16 i
  let x := xAt (i / numPolys)
  match d.directPoint p x with
  | some y => y
  | none => evalAt (lagrangeInterpolate ((d.pts p).take (necessaryPoints d.pointsNeeded p))) x

def decodedMessage (d : Decoder) : Option Bytes :=
  if ∃ i : Fin 16, (d.pts i).length < necessaryPoints d.pointsNeeded i then none
  else some ((List.range d.pointsNeeded).flatMap fun i =>
    [(be16 (d.decodedValue i).value).1, (be16 (d.decodedValue i).value).2])

/-- The points of the decoder are points of the message's polynomials, one for each `x`. -/
structure Collects (m : Payload) (d : Decoder) : Prop where
  needed : d.pointsNeeded = m.count
  nodup : ∀ p, ((d.pts p).map Pt.x).Nodup
  onPoly : ∀ p, ∀ q ∈ d.pts p, (m.msgPoly p).eval q.x = q.y

/-- Slot `p` has received the point at `x`. -/
def Holds (d : Decoder) (p : Fin 16) (x : GF16) : Prop := x ∈ (d.pts p).map Pt.x

/-- Slot `p` has enough points. -/
def Enough (d : Decoder) (p : Fin 16) : Prop := necessaryPoints d.pointsNeeded p ≤ (d.pts p).length

lemma empty_collects (m : Payload) : Collects m (.empty m.bytes.length) :=
  ⟨rfl, fun p => by simp [empty], fun p q hq => by simp [empty] at hq⟩

lemma addSlot_eq (c : Chunk) (d : Decoder) (i : Fin 16) :
    addSlot c d i =
      if c.index.toNat < necessaryPoints d.pointsNeeded i ∨
          (d.pts i).length < necessaryPoints d.pointsNeeded i then
        d.pushPoint i ⟨xAt c.index.toNat, c.slot i⟩
      else d := by
  have hn : numPolys = 16 := rfl
  have hi := i.isLt
  have hp : Fin.ofNat 16 (c.index.toNat * 16 + i) = i := by
    apply Fin.ext
    simp [Fin.ofNat]
  have hq : (c.index.toNat * 16 + i) / 16 = c.index.toNat := by omega
  simp only [addSlot, hn, hp, hq]

lemma pushPoint_cases (d : Decoder) (p : Fin 16) (q : Pt) : (d.Holds p q.x ∧ d.pushPoint p q = d) ∨
      (¬ d.Holds p q.x ∧ d.pushPoint p q = { d with pts := Function.update d.pts p (d.pts p ++ [q]) }) := by
  have hiff : (d.pts p).any (fun existing => existing.x.value == q.x.value) = true ↔
      d.Holds p q.x := by
    simp only [List.any_eq_true, beq_iff_eq, Holds, List.mem_map]
    constructor
    · rintro ⟨r, hr, hx⟩
      exact ⟨r, hr, GF16.ext hx⟩
    · rintro ⟨r, hr, hx⟩
      exact ⟨r, hr, congrArg GF16.value hx⟩
  by_cases h : d.Holds p q.x
  · exact .inl ⟨h, if_pos (hiff.mpr h)⟩
  · exact .inr ⟨h, if_neg (mt hiff.mp h)⟩

variable {b : Bytes} {d : Decoder} {m : Payload} {p : Fin 16}

lemma pushPoint_nodup (hd : ∀ p, ((d.pts p).map Pt.x).Nodup) (p : Fin 16) (q : Pt) :
    ∀ p', (((d.pushPoint p q).pts p').map Pt.x).Nodup := by
  intro p'
  rcases pushPoint_cases d p q with ⟨_, he⟩ | ⟨hnew, he⟩
  · rw [he]
    exact hd p'
  · rw [he]
    by_cases hp : p' = p
    · subst hp
      simp only [Function.update_self, List.map_append, List.map_cons, List.map_nil]
      exact List.nodup_append_comm.mp (List.nodup_cons.mpr ⟨hnew, hd p'⟩)
    · simpa [Function.update_of_ne hp] using hd p'

lemma pushPoint_collects (hd : Collects m d) {q : Pt} (hq : (m.msgPoly p).eval q.x = q.y) :
    Collects m (d.pushPoint p q) := by
  have hnodup := pushPoint_nodup hd.nodup p q
  rcases pushPoint_cases d p q with ⟨_, he⟩ | ⟨_, he⟩
  · rwa [he]
  · rw [he] at hnodup ⊢
    refine ⟨hd.needed, hnodup, ?_⟩
    intro p' r hr
    by_cases hp : p' = p
    · subst hp
      simp only [Function.update_self, List.mem_append, List.mem_singleton] at hr
      rcases hr with hr | rfl
      · exact hd.onPoly p' r hr
      · exact hq
    · simp only [Function.update_of_ne hp] at hr
      exact hd.onPoly p' r hr

lemma addChunk_collects (hd : Collects m d) (idx : UInt16) : Collects m (d.addChunk (m.chunkOf idx)) := by
  have hfold : ∀ (ps : List (Fin 16)) (d : Decoder), Collects m d →
      Collects m (ps.foldl (addSlot (m.chunkOf idx)) d) := by
    intro ps
    induction ps with
    | nil => exact fun d hd => hd
    | cons p ps ih =>
      intro d hd
      refine ih _ ?_
      rw [addSlot_eq]
      split
      · exact pushPoint_collects hd (m.slot_chunkOf idx p).symm
      · exact hd
  exact hfold _ _ hd

lemma evalAt_take (hd : Collects m d) (hen : d.Enough p) (x : GF16) :
    evalAt (lagrangeInterpolate ((d.pts p).take (necessaryPoints d.pointsNeeded p))) x
      = (m.msgPoly p).eval x := by
  refine evalAt_lagrangeInterpolate _ ?_ ?_ ?_ x
  · rw [List.length_take, Nat.min_eq_left hen, hd.needed]
    exact m.msgPoly_degree p
  · rw [List.map_take]
    exact (hd.nodup p).sublist (List.take_sublist _ _)
  · exact fun q hq => hd.onPoly p q (List.mem_of_mem_take hq)

lemma directPoint_eval (hd : Collects m d) {x y : GF16} (h : d.directPoint p x = some y) :
    y = (m.msgPoly p).eval x := by
  obtain ⟨q, hq, rfl⟩ := Option.map_eq_some_iff.mp h
  have hx : q.x = x := GF16.ext (by simpa using List.find?_some hq)
  rw [← hx]
  exact (hd.onPoly p q (List.mem_of_find?_eq_some hq)).symm

lemma decodedValue_eq (hd : Collects m d) (hen : ∀ p, d.Enough p) {i : Nat} (hi : i < m.count) :
    d.decodedValue i = msgValue m.bytes i := by
  have hn : numPolys = 16 := rfl
  have hval : (m.msgPoly (Fin.ofNat 16 i)).eval (xAt (i / 16)) = msgValue m.bytes i := by
    have hsum : 16 * (i / 16) + (Fin.ofNat 16 i).val = i := by
      change 16 * (i / 16) + i % 16 = i
      omega
    have hlt : i / 16 < m.need (Fin.ofNat 16 i) :=
      (lt_necessaryPoints (Fin.ofNat 16 i).isLt).mpr (by rw [hsum]; exact hi)
    rw [m.msgPoly_eval _ hlt, Payload.slotValue, hsum]
  simp only [decodedValue, hn]
  cases h : d.directPoint (Fin.ofNat 16 i) (xAt (i / 16)) with
  | some y => exact (directPoint_eval hd h).trans hval
  | none => exact (evalAt_take hd (hen _) _).trans hval

lemma flatMap_pairs {b : Bytes} (heven : b.length % 2 = 0) :
    (List.range (b.length / 2)).flatMap (fun i => [b.getD (i * 2) 0, b.getD (i * 2 + 1) 0]) = b := by
  match b, heven with
  | [], _ => rfl
  | [_], h => simp at h
  | x :: y :: rest, h =>
    have ih := flatMap_pairs (b := rest) (by simp at h; omega)
    have hlen : (x :: y :: rest).length / 2 = rest.length / 2 + 1 := by simp; omega
    rw [hlen, List.range_succ_eq_map, List.flatMap_cons, List.flatMap_map]
    have hshift : ∀ i, [(x :: y :: rest).getD ((i + 1) * 2) 0,
        (x :: y :: rest).getD ((i + 1) * 2 + 1) 0] = [rest.getD (i * 2) 0, rest.getD (i * 2 + 1) 0] := by
      intro i
      rw [show (i + 1) * 2 = i * 2 + 1 + 1 by ring]
      simp
    simp only [Nat.succ_eq_add_one, hshift, ih]
    rfl

lemma decodedMessage_eq (hd : Collects m d) : (∀ p, d.Enough p) ∧ d.decodedMessage = some m.bytes ∨
      (¬ ∀ p, d.Enough p) ∧ d.decodedMessage = none := by
  by_cases hen : ∀ p, d.Enough p
  · refine .inl ⟨hen, ?_⟩
    have hnot : ¬ ∃ i : Fin 16, (d.pts i).length < necessaryPoints d.pointsNeeded i :=
      fun ⟨i, hi⟩ => absurd (hen i) (Nat.not_le.mpr hi)
    rw [decodedMessage, if_neg hnot, hd.needed]
    have hbytes : ∀ i ∈ List.range m.count,
        [(be16 (d.decodedValue i).value).1, (be16 (d.decodedValue i).value).2]
          = [m.bytes.getD (i * 2) 0, m.bytes.getD (i * 2 + 1) 0] := by
      intro i hi
      rw [decodedValue_eq hd hen (List.mem_range.mp hi), msgValue, be16_ofBe16]
    rw [List.flatMap_congr hbytes]
    exact congrArg some (flatMap_pairs m.even)
  · refine .inr ⟨hen, if_pos ?_⟩
    obtain ⟨p, hp⟩ := not_forall.mp hen
    exact ⟨p, Nat.lt_of_not_le hp⟩

lemma decodedMessage_of_enough (h : ∀ p, d.Enough p) : d.decodedMessage ≠ none := by
  have hnot : ¬ ∃ i : Fin 16, (d.pts i).length < necessaryPoints d.pointsNeeded i :=
    fun ⟨i, hi⟩ => absurd (h i) (Nat.not_le.mpr hi)
  rw [decodedMessage, if_neg hnot]
  exact Option.some_ne_none _

lemma length_decodedMessage (h : d.decodedMessage = some b) : b.length = d.pointsNeeded * 2 := by
  rw [decodedMessage] at h
  split at h
  · cases h
  · cases h
    simp [List.length_flatMap]

lemma foldl_addSlot_pointsNeeded (c : Chunk) (ps : List (Fin 16)) (d : Decoder) :
    (ps.foldl (addSlot c) d).pointsNeeded = d.pointsNeeded := by
  induction ps generalizing d with
  | nil => rfl
  | cons p ps ih =>
    rw [List.foldl_cons, ih, addSlot_eq]
    split
    · rcases pushPoint_cases d p ⟨xAt c.index.toNat, c.slot p⟩ with ⟨_, he⟩ | ⟨_, he⟩ <;> rw [he]
    · rfl

@[simp] lemma addChunk_pointsNeeded (d : Decoder) (c : Chunk) :
    (d.addChunk c).pointsNeeded = d.pointsNeeded := by
  rw [addChunk, foldl_addSlot_pointsNeeded]

lemma Collects.decoded (hd : Collects m d) (h : d.decodedMessage = some b) : b = m.bytes := by
  rcases decodedMessage_eq hd with ⟨_, he⟩ | ⟨_, he⟩ <;> rw [he] at h <;> cases h
  rfl

end Decoder

-- Users of the code work with the lemmas above and never unfold the coding functions.
attribute [irreducible] Decoder.addChunk Decoder.decodedMessage Encoder.nextChunk newEncoder

end LibSignal.Chunked
