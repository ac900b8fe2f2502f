import LibSignal.Chunked.Erasure
import LibSignal.Lib.ExceptBind

/-!
# What survives the stored form

Encoders and decoders of messages of any length are stored and read back (`EncoderFromProto` after
`EncoderToProto`, and the same for decoders).
-/

namespace LibSignal.Chunked
open Lib

namespace Encoder

inductive Query
  | chunkAt (idx : UInt16)
  | nextChunk

def answer (e : Encoder) : Query → Chunk × Encoder
  | .chunkAt idx => e.chunkAt idx
  | .nextChunk => e.nextChunk

def answers : List Query → Encoder → List Chunk
  | [], _ => []
  | q :: qs, e => (e.answer q).1 :: answers qs (e.answer q).2

def emitted : Nat → Encoder → Encoder
  | 0, e => e
  | n + 1, e => emitted n e.nextChunk.2

/-- The encoder is read back and serves the same chunks for all requests. -/
def Survives (e : Encoder) : Prop :=
  ∃ e', encoderFromProto (encoderToProto e) = .ok e' ∧ ∀ qs, answers qs e' = answers qs e

structure Like (e' e : Encoder) : Prop where
  switched : e'.switched = e.switched
  idx : e'.idx = e.idx
  values : e.switched = false → e'.values = e.values
  polys : e.switched = true → e'.polys = e.polys

lemma stored_like (e : Encoder) : e.stored.Like e :=
  ⟨rfl, rfl, fun hs => by simp [stored, hs], fun hs => by simp [stored, hs]⟩

variable {e e' : Encoder}

lemma Like.pointAt (h : e'.Like e) (p : Fin 16) (i : Nat) :
    (e'.pointAt p i).1 = (e.pointAt p i).1 ∧ (e'.pointAt p i).2.Like (e.pointAt p i).2 := by
  cases hs : e.switched with
  | true =>
    have hs' : e'.switched = true := h.switched.trans hs
    simp only [Encoder.pointAt, hs, hs', Bool.not_true, Bool.false_and, Bool.false_eq_true, if_false,
      if_true, h.polys hs]
    exact ⟨trivial, h⟩
  | false =>
    have hs' : e'.switched = false := h.switched.trans hs
    simp only [Encoder.pointAt, hs, hs', h.values hs, Bool.not_false, Bool.true_and, decide_eq_true_eq,
      Bool.false_eq_true, if_false]
    by_cases hi : i < (e.values p).length
    · rw [if_pos hi, if_pos hi]
      exact ⟨rfl, h⟩
    · rw [if_neg hi, if_neg hi]
      have hpolys : e'.switch.polys = e.switch.polys := by rw [switch, switch, h.values hs]
      refine ⟨by rw [hpolys], rfl, h.idx, fun hsw => ?_, fun _ => hpolys⟩
      cases hsw

lemma Like.pointsAt (i : Nat) (ps : List (Fin 16)) (h : e'.Like e) :
    (pointsAt i ps e').1 = (pointsAt i ps e).1 ∧ (pointsAt i ps e').2.Like (pointsAt i ps e).2 := by
  induction ps generalizing e' e with
  | nil => exact ⟨rfl, h⟩
  | cons p ps ih =>
    obtain ⟨hv, hlike⟩ := h.pointAt p i
    obtain ⟨hvs, hlike'⟩ := ih hlike
    exact ⟨congrArg₂ List.cons hv hvs, hlike'⟩

lemma Like.chunkAt (h : e'.Like e) (idx : UInt16) :
    (e'.chunkAt idx).1 = (e.chunkAt idx).1 ∧ (e'.chunkAt idx).2.Like (e.chunkAt idx).2 := by
  obtain ⟨hvs, hlike⟩ := h.pointsAt idx.toNat (List.finRange 16)
  exact ⟨congrArg (fun vs => Chunk.mk idx (packValues vs)) hvs, hlike⟩

lemma Like.nextChunk (h : e'.Like e) : e'.nextChunk.1 = e.nextChunk.1 ∧ e'.nextChunk.2.Like e.nextChunk.2 := by
  obtain ⟨hc, hlike⟩ := h.chunkAt e.idx
  rw [Encoder.nextChunk, Encoder.nextChunk, h.idx]
  exact ⟨hc, hlike.switched, congrArg (· + 1) hlike.idx, hlike.values, hlike.polys⟩

lemma Like.answers (h : e'.Like e) (qs : List Query) : answers qs e' = answers qs e := by
  induction qs generalizing e' e with
  | nil => rfl
  | cons q qs ih =>
    have hq : (e'.answer q).1 = (e.answer q).1 ∧ (e'.answer q).2.Like (e.answer q).2 := by
      cases q with
      | chunkAt idx => exact h.chunkAt idx
      | nextChunk => exact h.nextChunk
    exact congrArg₂ List.cons hq.1 (ih hq.2)

lemma survives_of_polys (h : e.switched = true → ∀ p, e.polys p ≠ []) : e.Survives :=
  ⟨e.stored, encoderFromProto_toProto h, fun qs => e.stored_like.answers qs⟩

lemma polys_ne_nil_of_ok (hs : e.switched = true) (hok : encoderFromProto (encoderToProto e) = .ok e')
    (p : Fin 16) : e.polys p ≠ [] := by
  intro hempty
  have hn : numPolys = 16 := rfl
  simp only [encoderFromProto, encoderToProto, hs, if_true, List.length_nil, ne_eq, not_true,
    if_false, length_slots, hn] at hok
  obtain ⟨cs, hcs, -⟩ := bind_eq_ok hok
  have hmem : serializeGF16s (e.polys p) ∈ slots fun p => serializeGF16s (e.polys p) :=
    List.mem_map.mpr ⟨p, List.mem_finRange _, rfl⟩
  obtain ⟨y, hy⟩ := mapM_ok_mem hcs hmem
  rw [hempty] at hy
  cases hy

lemma survives_of_ok (h : encoderFromProto (encoderToProto e) = .ok e') : e.Survives := by
  cases hs : e.switched with
  | false => exact survives_of_polys fun hsw => (by rw [hs] at hsw; cases hsw)
  | true =>
    refine survives_of_polys fun _ p hempty => ?_
    exact polys_ne_nil_of_ok hs h p hempty

/-! ## Properties kept by serving chunks -/

lemma pointAt_keeps {P : Encoder → Prop} (hswitch : ∀ e, P e → e.switched = false → P e.switch) (h : P e)
    (p : Fin 16) (i : Nat) : P (e.pointAt p i).2 := by
  rw [pointAt]
  split
  · exact h
  · cases hs : e.switched with
    | true => exact h
    | false => exact hswitch e h hs

lemma pointsAt_keeps {P : Encoder → Prop} (hswitch : ∀ e, P e → e.switched = false → P e.switch) (i : Nat)
    (ps : List (Fin 16)) (h : P e) : P (pointsAt i ps e).2 := by
  induction ps generalizing e with
  | nil => exact h
  | cons p ps ih => exact ih (pointAt_keeps hswitch h p i)

lemma nextChunk_keeps {P : Encoder → Prop} (hswitch : ∀ e, P e → e.switched = false → P e.switch)
    (hidx : ∀ e i, P e → P { e with idx := i }) (h : P e) : P e.nextChunk.2 := by
  rw [nextChunk]
  exact hidx _ _ (pointsAt_keeps hswitch e.idx.toNat (List.finRange 16) h)

lemma emitted_keeps {P : Encoder → Prop} (hswitch : ∀ e, P e → e.switched = false → P e.switch)
    (hidx : ∀ e i, P e → P { e with idx := i }) (n : Nat) (h : P e) : P (emitted n e) := by
  induction n generalizing e with
  | zero => exact h
  | succ n ih => exact ih (nextChunk_keeps hswitch hidx h)

/-- Every slot has a value, or a coefficient after the switch. -/
def Filled (e : Encoder) : Prop :=
  (e.switched = false → ∀ p, e.values p ≠ []) ∧ (e.switched = true → ∀ p, e.polys p ≠ [])

lemma Filled.switch (h : e.Filled) (hs : e.switched = false) : e.switch.Filled := by
  refine ⟨fun hsw => (by cases hsw), fun _ p => lagrangeInterpolate_ne_nil _ ?_⟩
  simpa [points] using h.1 hs p

section
local instance neZero_slots : NeZero 16 := ⟨by decide⟩

/-- The last slot has neither a value nor, after the switch, a coefficient. -/
def Hollow (e : Encoder) : Prop :=
  e.values 15 = [] ∧ (e.switched = true → e.polys 15 = [])

end

lemma Hollow.switch (h : e.Hollow) : e.switch.Hollow := by
  refine ⟨h.1, fun _ => ?_⟩
  simp [Encoder.switch, h.1, points, lagrangeInterpolate]

lemma Hollow.pointAt_switched (h : e.Hollow) (i : Nat) : (e.pointAt 15 i).2.switched = true := by
  cases hs : e.switched with
  | true => simp [pointAt, hs]
  | false => simp [pointAt, hs, h.1, Encoder.switch]

lemma Hollow.nextChunk_switched (h : e.Hollow) : e.nextChunk.2.switched = true := by
  have hstay : ∀ e : Encoder, e.switched = true → e.switched = false → e.switch.switched = true :=
    fun _ _ _ => rfl
  have hloop : ∀ (ps : List (Fin 16)) (e : Encoder) (i : Nat), e.Hollow → (15 : Fin 16) ∈ ps →
      (pointsAt i ps e).2.switched = true := by
    intro ps
    induction ps with
    | nil => exact fun e i _ hmem => by simp at hmem
    | cons p ps ih =>
      intro e i he hmem
      by_cases hp : p = 15
      · subst hp
        exact pointsAt_keeps hstay i ps (he.pointAt_switched i)
      · have hrest := pointAt_keeps (P := Hollow) (fun _ h _ => h.switch) he p i
        exact ih _ i hrest ((List.mem_cons.mp hmem).resolve_left (Ne.symm hp))
  rw [nextChunk]
  exact hloop _ _ _ h (List.mem_finRange _)

lemma Hollow.lost (h : e.Hollow) (hs : e.switched = true) (e' : Encoder) :
    encoderFromProto (encoderToProto e) ≠ .ok e' :=
  fun hok => polys_ne_nil_of_ok hs hok 15 (h.2 hs)

lemma newEncoder_slots {msg : Bytes} (h : newEncoder msg = .ok e) : e.switched = false ∧ ∀ p, e.values p
      = (List.range (necessaryPoints (msg.length / 2) p)).map (fun j => msgValue msg (16 * j + p)) := by
  rw [newEncoder] at h
  split at h
  · cases h
  · cases h
    exact ⟨rfl, foldl_dealValue msg (msg.length / 2)⟩

lemma emitted_survives_iff {msg : Bytes} (h : newEncoder msg = .ok e) (n : Nat) :
    (emitted n e).Survives ↔ 32 ≤ msg.length ∨ n = 0 := by
  obtain ⟨hs, hv⟩ := newEncoder_slots h
  constructor
  · rintro ⟨e', hok, -⟩
    by_contra hno
    obtain ⟨hshort, hn⟩ := not_or.mp hno
    have hhollow : e.Hollow := by
      have hneed : necessaryPoints (msg.length / 2) 15 = 0 := by
        have hiff := @lt_necessaryPoints (msg.length / 2) 15 0 (by decide)
        omega
      refine ⟨?_, fun hsw => ?_⟩
      · rw [hv 15]
        change (List.range (necessaryPoints (msg.length / 2) 15)).map _ = []
        rw [hneed]
        rfl
      · rw [hs] at hsw
        cases hsw
    obtain ⟨n, rfl⟩ := Nat.exists_eq_succ_of_ne_zero hn
    have hkeeps : ∀ e : Encoder, e.Hollow → e.switched = false → e.switch.Hollow :=
      fun _ h _ => h.switch
    have hfirst := nextChunk_keeps hkeeps (fun _ _ h => h) hhollow
    have hall : (emitted n e.nextChunk.2).Hollow ∧ (emitted n e.nextChunk.2).switched = true :=
      emitted_keeps (P := fun e => e.Hollow ∧ e.switched = true) (fun _ h _ => ⟨h.1.switch, rfl⟩)
        (fun _ _ h => h) n ⟨hfirst, hhollow.nextChunk_switched⟩
    exact hall.1.lost hall.2 e' hok
  · rintro (hlong | rfl)
    · have hfilled : e.Filled := by
        refine ⟨fun _ p => ?_, fun hsw => ?_⟩
        · have hp := p.isLt
          have hneed : 0 < necessaryPoints (msg.length / 2) p := by
            refine (lt_necessaryPoints hp).mpr ?_
            omega
          rw [hv p]
          simpa using Nat.ne_of_gt hneed
        · rw [hs] at hsw
          cases hsw
      have hall := emitted_keeps (fun _ h hs => h.switch hs) (fun _ _ h => h) n hfilled
      exact survives_of_polys hall.2
    · refine survives_of_polys fun hsw => ?_
      rw [emitted, hs] at hsw
      cases hsw

end Encoder

namespace Decoder

/-- The decoder is read back and decodes the same messages now and after any further chunks. -/
def Survives (d : Decoder) : Prop :=
  ∃ d', decoderFromProto (decoderToProto d) = .ok d' ∧ ∀ cs : List Chunk,
    (cs.foldl addChunk d').decodedMessage = (cs.foldl addChunk d).decodedMessage

variable {d : Decoder}

lemma addChunk_nodup (hd : ∀ p, ((d.pts p).map Pt.x).Nodup) (c : Chunk) :
    ∀ p, (((d.addChunk c).pts p).map Pt.x).Nodup := by
  have hfold : ∀ (ps : List (Fin 16)) (d : Decoder), (∀ p, ((d.pts p).map Pt.x).Nodup) →
      ∀ p, (((ps.foldl (addSlot c) d).pts p).map Pt.x).Nodup := by
    intro ps
    induction ps with
    | nil => exact fun d hd => hd
    | cons i ps ih =>
      intro d hd
      refine ih _ ?_
      rw [addSlot_eq]
      split
      · exact pushPoint_nodup hd i _
      · exact hd
  rw [Decoder.addChunk]
  exact hfold _ _ hd

lemma foldl_addChunk_nodup (hd : ∀ p, ((d.pts p).map Pt.x).Nodup) (cs : List Chunk) :
    ∀ p, (((cs.foldl addChunk d).pts p).map Pt.x).Nodup := by
  induction cs generalizing d with
  | nil => exact hd
  | cons c cs ih => exact ih (addChunk_nodup hd c)

@[simp] lemma foldl_addChunk_pointsNeeded (d : Decoder) (cs : List Chunk) :
    (cs.foldl addChunk d).pointsNeeded = d.pointsNeeded := by
  induction cs generalizing d with
  | nil => rfl
  | cons c cs ih => rw [List.foldl_cons, ih, addChunk_pointsNeeded]

lemma length_le_of_nodup {p : Fin 16} (hd : ((d.pts p).map Pt.x).Nodup) : (d.pts p).length ≤ 65536 := by
  have hinj : Function.Injective fun x : GF16 => x.value.toNat :=
    fun a b hab => GF16.ext (UInt16.toNat_inj.mp hab)
  have hnodup := hd.map hinj
  have hsub : ((d.pts p).map Pt.x).map (fun x => x.value.toNat) ⊆ List.range 65536 := by
    intro k hk
    obtain ⟨x, -, rfl⟩ := List.mem_map.mp hk
    exact List.mem_range.mpr x.value.toNat_lt
  simpa using (hnodup.subperm hsub).length_le

lemma decodedMessage_of_large (hd : ∀ p, ((d.pts p).map Pt.x).Nodup) (hlarge : 2 ^ 20 < d.pointsNeeded)
    (cs : List Chunk) : (cs.foldl addChunk d).decodedMessage = none := by
  have hslot := length_le_of_nodup (foldl_addChunk_nodup hd cs 0)
  have hneed : 65536 < necessaryPoints (cs.foldl addChunk d).pointsNeeded (0 : Fin 16) := by
    refine (lt_necessaryPoints (0 : Fin 16).isLt).mpr ?_
    rw [foldl_addChunk_pointsNeeded]
    exact hlarge
  rw [decodedMessage]
  exact if_pos ⟨0, lt_of_le_of_lt hslot hneed⟩

lemma foldl_addChunk_kept (d : Decoder) (p : Fin 16) (cs : List Chunk) (added : List UInt16)
    (h : d.Enough p ∨ ∀ i ∈ added, d.Holds p ⟨i⟩) : (cs.foldl addChunk d).Enough p ∨
      ∀ i ∈ (cs.map Chunk.index).reverse ++ added, (cs.foldl addChunk d).Holds p ⟨i⟩ := by
  induction cs generalizing d added with
  | nil => simpa using h
  | cons c cs ih => simpa using ih (d.addChunk c) (c.index :: added) (kept_addChunk h c)

def allIndices : List Chunk :=
  (List.range 65536).map fun i => ⟨i.toUInt16, Vector.replicate 32 0⟩

lemma card_allIndices : ((allIndices.map Chunk.index).reverse ++ []).toFinset.card = 65536 := by
  have hnodup : (allIndices.map Chunk.index).Nodup := by
    rw [allIndices, List.map_map]
    refine List.Nodup.map_on ?_ List.nodup_range
    intro i hi j hj hij
    have hi' := List.mem_range.mp hi
    have hj' := List.mem_range.mp hj
    exact xAt_inj hi' hj' (congrArg GF16.mk hij)
  rw [List.append_nil, List.toFinset_card_of_nodup (List.nodup_reverse.mpr hnodup), List.length_reverse,
    List.length_map, allIndices, List.length_map, List.length_range]

lemma decodedMessage_of_small (hsmall : d.pointsNeeded ≤ 2 ^ 20) :
    (allIndices.foldl addChunk d).decodedMessage ≠ none := by
  refine decodedMessage_of_enough fun p => ?_
  rcases foldl_addChunk_kept d p allIndices [] (.inr fun i hi => by simp at hi) with hen | hall
  · exact hen
  · refine le_trans ?_ (card_le_of_holds hall)
    rw [card_allIndices, foldl_addChunk_pointsNeeded]
    by_contra hgt
    have hlt := (lt_necessaryPoints p.isLt).mp (Nat.lt_of_not_le hgt)
    omega

lemma foldl_addChunk_survives_iff (msgLen : Nat) (cs : List Chunk) :
    (cs.foldl addChunk (empty msgLen)).Survives ↔ msgLen / 2 < 2 ^ 32 ∨ 2 ^ 20 < msgLen / 2 % 2 ^ 32 := by
  have hneeded : (cs.foldl addChunk (empty msgLen)).pointsNeeded = msgLen / 2 :=
    foldl_addChunk_pointsNeeded _ cs
  have hnodup := foldl_addChunk_nodup (d := empty msgLen) (fun p => by simp [empty]) cs
  generalize cs.foldl addChunk (empty msgLen) = d at hneeded hnodup
  have hread := decoderFromProto_toProto_mod d
  rw [← hneeded]
  constructor
  · rintro ⟨d', hok, hsame⟩
    by_contra hno
    obtain ⟨hbig, hcut⟩ := not_or.mp hno
    cases hread.symm.trans hok
    refine decodedMessage_of_small (Nat.le_of_not_lt hcut) ((hsame allIndices).trans ?_)
    exact decodedMessage_of_large hnodup (by omega) allIndices
  · rintro (hfits | hcut)
    · exact ⟨d, decoderFromProto_toProto hfits, fun _ => rfl⟩
    · refine ⟨_, hread, fun cs => ?_⟩
      have hle := Nat.mod_le d.pointsNeeded (2 ^ 32)
      rw [decodedMessage_of_large hnodup (by omega) cs]
      exact decodedMessage_of_large (d := ⟨d.pointsNeeded % 2 ^ 32, d.pts⟩) hnodup hcut cs

end Decoder

/-- Which encoders and decoders survive their stored form: encoders of messages of at least 32 bytes
and encoders that have sent nothing, and decoders whose number of points is not cut to a different one
that can be reached. -/
theorem stored_form_survives_iff (msg : Bytes) (heven : msg.length % 2 = 0) (n : Nat)
    (msgLen : Nat) (hlen : msgLen % 2 = 0) (cs : List Chunk) : (∃ e, newEncoder msg = .ok e ∧
      ((e.emitted n).Survives ↔ 32 ≤ msg.length ∨ n = 0)) ∧ (∃ d, newDecoder msgLen = .ok d ∧
      ((cs.foldl Decoder.addChunk d).Survives ↔ msgLen / 2 < 2 ^ 32 ∨ 2 ^ 20 < msgLen / 2 % 2 ^ 32)) := by
  constructor
  · cases h : newEncoder msg with
    | error err =>
      rw [newEncoder, if_neg (by omega)] at h
      cases h
    | ok e => exact ⟨e, rfl, Encoder.emitted_survives_iff h n⟩
  · exact ⟨.empty msgLen, if_neg (by omega), Decoder.foldl_addChunk_survives_iff msgLen cs⟩

/-- The encoder of a 32-byte message survives after its first chunk. -/
theorem stored_form_survives_full_chunk :
    ∃ e, newEncoder (List.replicate 32 7) = .ok e ∧ (e.emitted 1).Survives := by
  obtain ⟨⟨e, he, hiff⟩, -⟩ :=
    stored_form_survives_iff (List.replicate 32 7) (by decide) 1 32 (by decide) []
  exact ⟨e, he, hiff.mpr (.inl (by decide))⟩

/-- The encoder of a two-byte message that has sent one chunk cannot be read back, and a decoder for
`2^33` bytes is read back as one that has decoded the empty message. -/
theorem stored_form_lost : (∃ e, newEncoder [1, 2] = .ok e ∧ ∀ e',
      encoderFromProto (encoderToProto e.nextChunk.2) ≠ .ok e') ∧
    (∃ d, newDecoder (2 ^ 33) = .ok d ∧ ¬ d.Survives) := by
  constructor
  · cases h : newEncoder [1, 2] with
    | error err =>
      rw [newEncoder, if_neg (by decide)] at h
      cases h
    | ok e =>
      refine ⟨e, rfl, fun e' hok => ?_⟩
      have hno := (Encoder.emitted_survives_iff h 1).not.mpr (by decide)
      exact hno (Encoder.survives_of_ok hok)
  · refine ⟨.empty (2 ^ 33), if_neg (by decide), ?_⟩
    exact (Decoder.foldl_addChunk_survives_iff (2 ^ 33) []).not.mpr (by decide)

end LibSignal.Chunked
