import LibSignal.Chunked.Stream

/-!
# Stored form of encoders and decoders

Model of `internal/spqr/chunked/codec.go`: the conversions between the in-memory encoder and decoder and their
`PolynomialEncoder` / `PolynomialDecoder` messages.
-/

namespace LibSignal.Chunked

structure PolynomialEncoder where
  idx : UInt32
  pts : List Bytes
  polys : List Bytes
deriving DecidableEq, Repr

structure PolynomialDecoder where
  ptsNeeded : UInt32
  polys : UInt32
  pts : List Bytes
  isComplete : Bool
deriving DecidableEq, Repr

def ptSize : Nat := 4

def serializeGF16s (vs : List GF16) : Bytes :=
  vs.flatMap fun v => [(be16 v.value).1, (be16 v.value).2]

def readGF16s : Bytes → List GF16
  | a :: b :: rest => ⟨ofBe16 a b⟩ :: readGF16s rest
  | _ => []

def deserializeGF16s (b : Bytes) : Except ChunkErr (List GF16) :=
  if b.length % 2 ≠ 0 then .error .serializationInvalid else .ok (readGF16s b)

def serializePts (pts : List Pt) : Bytes :=
  pts.flatMap fun q => [(be16 q.x.value).1, (be16 q.x.value).2, (be16 q.y.value).1, (be16 q.y.value).2]

def readPts : Bytes → List Pt
  | a :: b :: c :: d :: rest => ⟨⟨ofBe16 a b⟩, ⟨ofBe16 c d⟩⟩ :: readPts rest
  | _ => []

def deserializePts (raw : Bytes) : Except ChunkErr (List Pt) :=
  if raw.length % ptSize ≠ 0 then .error .serializationInvalid else .ok (readPts raw)

def slots {α : Type} (f : Fin 16 → α) : List α := (List.finRange 16).map f

def encoderToProto (e : Encoder) : PolynomialEncoder :=
  if e.switched then
    { idx := e.idx.toUInt32, pts := [], polys := slots fun p => serializeGF16s (e.polys p) }
  else
    { idx := e.idx.toUInt32, pts := slots fun p => serializeGF16s (e.values p), polys := [] }

def readPoly (b : Bytes) : Except ChunkErr (List GF16) :=
  match deserializeGF16s b with
  | .error _ => .error .serializationInvalid
  | .ok cs => if cs.length = 0 then .error .serializationInvalid else .ok cs

def encoderFromProto (pb : PolynomialEncoder) : Except ChunkErr Encoder :=
  if pb.pts.length ≠ 0 then
    if pb.polys.length ≠ 0 ∨ pb.pts.length ≠ numPolys then .error .serializationInvalid
    else do
      let vs ← pb.pts.mapM deserializeGF16s
      return { values := fun p => vs.getD p [], polys := fun _ => [], idx := pb.idx.toUInt16,
               switched := false }
  else if pb.polys.length = numPolys then do
    let cs ← pb.polys.mapM readPoly
    return { values := fun _ => [], polys := fun p => cs.getD p [], idx := pb.idx.toUInt16, switched := true }
  else .error .serializationInvalid

def decoderToProto (d : Decoder) : PolynomialDecoder :=
  { ptsNeeded := d.pointsNeeded.toUInt32, polys := numPolys.toUInt32,
    pts := slots fun p => serializePts (d.pts p), isComplete := false }

def decoderFromProto (pb : PolynomialDecoder) : Except ChunkErr Decoder :=
  if pb.pts.length ≠ numPolys then .error .serializationInvalid
  else do
    let ps ← pb.pts.mapM deserializePts
    return { pointsNeeded := pb.ptsNeeded.toNat, pts := fun p => ps.getD p [] }

/-! ## Round trips -/

@[simp] lemma deserializeGF16s_serialize (vs : List GF16) : deserializeGF16s (serializeGF16s vs) = .ok vs := by
  have hlen : (serializeGF16s vs).length = 2 * vs.length := by
    simp [serializeGF16s, List.length_flatMap, mul_comm]
  have hread : readGF16s (serializeGF16s vs) = vs := by
    induction vs with
    | nil => rfl
    | cons v vs ih =>
      have hrest := ih (by simp [serializeGF16s, List.length_flatMap, mul_comm])
      simp only [serializeGF16s] at hrest
      simp [serializeGF16s, readGF16s, hrest]
  rw [deserializeGF16s, if_neg (by omega), hread]

@[simp] lemma deserializePts_serialize (ps : List Pt) : deserializePts (serializePts ps) = .ok ps := by
  have hlen : (serializePts ps).length = 4 * ps.length := by
    simp [serializePts, List.length_flatMap, mul_comm]
  have hread : readPts (serializePts ps) = ps := by
    induction ps with
    | nil => rfl
    | cons q ps ih =>
      have hrest := ih (by simp [serializePts, List.length_flatMap, mul_comm])
      simp only [serializePts] at hrest
      simp [serializePts, readPts, hrest]
  rw [deserializePts, if_neg (by rw [ptSize]; omega), hread]

lemma readPoly_serialize {cs : List GF16} (h : cs ≠ []) : readPoly (serializeGF16s cs) = .ok cs := by
  rw [readPoly, deserializeGF16s_serialize]
  exact if_neg (by simpa using h)

lemma mapM_slots {α β : Type} {f : α → Except ChunkErr β} {g : Fin 16 → α} {v : Fin 16 → β}
    (h : ∀ p, f (g p) = .ok (v p)) : (slots g).mapM f = .ok (slots v) := by
  have hmap : ∀ ps : List (Fin 16), (ps.map g).mapM f = .ok (ps.map v) := by
    intro ps
    induction ps with
    | nil => rfl
    | cons p ps ih => simp [List.mapM_cons, h p, ih, bind, Except.bind, pure, Except.pure]
  exact hmap _

@[simp] lemma length_slots {α : Type} (v : Fin 16 → α) : (slots v).length = 16 := by
  simp [slots]

@[simp] lemma getD_slots {α : Type} (v : Fin 16 → α) (p : Fin 16) (a : α) : (slots v).getD p a = v p := by
  rw [slots, List.getD_eq_getElem _ _ (by simp), List.getElem_map, List.getElem_finRange]
  rfl

def Encoder.stored (e : Encoder) : Encoder :=
  { values := if e.switched then fun _ => [] else e.values
    polys := if e.switched then e.polys else fun _ => []
    idx := e.idx
    switched := e.switched }

lemma encoderFromProto_toProto {e : Encoder} (h : e.switched = true → ∀ p, e.polys p ≠ []) :
    encoderFromProto (encoderToProto e) = .ok e.stored := by
  have hn : numPolys = 16 := rfl
  have hidx : e.idx.toUInt32.toUInt16 = e.idx := by simp
  cases hs : e.switched with
  | true =>
    have hm := mapM_slots (v := e.polys) (fun p => readPoly_serialize (h hs p))
    simp [encoderFromProto, encoderToProto, Encoder.stored, hs, hn, hm, hidx, bind, Except.bind,
      pure, Except.pure, -List.getD_eq_getElem?_getD]
  | false =>
    have hm := mapM_slots (v := e.values) (fun p => deserializeGF16s_serialize (e.values p))
    simp [encoderFromProto, encoderToProto, Encoder.stored, hs, hn, hm, hidx, bind, Except.bind,
      pure, Except.pure, -List.getD_eq_getElem?_getD]

lemma decoderFromProto_toProto_mod (d : Decoder) :
    decoderFromProto (decoderToProto d) =
      .ok { d with pointsNeeded := d.pointsNeeded % 2 ^ 32 } := by
  have hn : numPolys = 16 := rfl
  have hm := mapM_slots (v := d.pts) (fun p => deserializePts_serialize (d.pts p))
  simp [decoderFromProto, decoderToProto, hn, hm, bind, Except.bind, pure, Except.pure,
    -List.getD_eq_getElem?_getD]

lemma decoderFromProto_toProto {d : Decoder} (h : d.pointsNeeded < 2 ^ 32) :
    decoderFromProto (decoderToProto d) = .ok d := by
  rw [decoderFromProto_toProto_mod, Nat.mod_eq_of_lt h]

def Payload.Full (m : Payload) : Prop := ∀ p, 0 < m.need p

lemma Encoder.Rep.reload {m : Payload} {e : Encoder} (hrep : Rep m e) (hfull : m.Full) :
    ∃ e', encoderFromProto (encoderToProto e) = .ok e' ∧ Rep m e' ∧ e'.idx = e.idx := by
  refine ⟨e.stored, encoderFromProto_toProto ?_, ?_, rfl⟩
  · intro hs p
    cases hrep with
    | points hs' => rw [hs] at hs'; cases hs'
    | polys _ _ hne => exact hne p (hfull p)
  · cases hrep with
    | points hs hv => exact .points hs (by intro p; simp [stored, hs, hv])
    | polys hs hp hne =>
      exact .polys hs (by intro p; simp [stored, hs, hp]) (by intro p; simpa [stored, hs] using hne p)

end LibSignal.Chunked
