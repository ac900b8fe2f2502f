import LibSignal.Chunked.Transport

/-!
# Decoding from any sufficient set of chunks

An encoder is asked for chunks in any order and a decoder is given any of the produced chunks, again in any
order and with repetitions (`Transfer`).
-/

namespace LibSignal.Chunked

lemma xAt_toNat (idx : UInt16) : xAt idx.toNat = ⟨idx⟩ :=
  GF16.ext (by simp [xAt])

lemma Encoder.chunkAt_spec {m : Payload} {e : Encoder} (hrep : Rep m e) (idx : UInt16) :
    ∃ e', e.chunkAt idx = (m.chunkOf idx, e') ∧ Rep m e' ∧ e'.idx = e.idx := by
  obtain ⟨e', hps, hrep', hi⟩ := pointsAt_spec idx.toNat (List.finRange 16) hrep
  refine ⟨e', ?_, hrep', hi⟩
  rw [chunkAt, hps]
  rfl

namespace Decoder

/-- The slots hold nothing but the added indices, and all of them until they have enough points. -/
structure Counts (d : Decoder) (added : List UInt16) : Prop where
  held : ∀ p x, d.Holds p x → x.value ∈ added
  kept : ∀ p, d.Enough p ∨ ∀ i ∈ added, d.Holds p ⟨i⟩

lemma empty_counts (msgLen : Nat) : (empty msgLen).Counts [] :=
  ⟨fun p x h => by simp [Holds, empty] at h, fun p => .inr fun i hi => by simp at hi⟩

variable {added : List UInt16} {d : Decoder} {p : Fin 16} {x : GF16}

lemma addSlot_holds {c : Chunk} {i : Fin 16} (h : (addSlot c d i).Holds p x) : d.Holds p x ∨ x = ⟨c.index⟩ := by
  rw [addSlot_eq] at h
  split at h
  · rcases pushPoint_cases d i ⟨xAt c.index.toNat, c.slot i⟩ with ⟨_, he⟩ | ⟨_, he⟩
    · rw [he] at h
      exact .inl h
    · rw [he] at h
      by_cases hp : p = i
      · subst hp
        simp only [Holds, Function.update_self, List.map_append, List.mem_append, List.map_cons,
          List.map_nil, List.mem_singleton] at h
        rcases h with h | h
        · exact .inl h
        · exact .inr (h.trans (xAt_toNat _))
      · simp only [Holds, Function.update_of_ne hp] at h
        exact .inl h
  · exact .inl h

lemma holds_of_addChunk {c : Chunk} (h : (d.addChunk c).Holds p x) : d.Holds p x ∨ x = ⟨c.index⟩ := by
  have hfold : ∀ (ps : List (Fin 16)) (d : Decoder), (ps.foldl (addSlot c) d).Holds p x →
      d.Holds p x ∨ x = ⟨c.index⟩ := by
    intro ps
    induction ps with
    | nil => exact fun d h => .inl h
    | cons i ps ih =>
      intro d h
      rcases ih _ h with h | h
      · exact addSlot_holds h
      · exact .inr h
  rw [Decoder.addChunk] at h
  exact hfold _ _ h

lemma Enough.addChunk (h : d.Enough p) (c : Chunk) : (d.addChunk c).Enough p := by
  rw [Enough, addChunk_pointsNeeded]
  exact le_trans h (addChunk_mono d c p).length_le

lemma Holds.addChunk (h : d.Holds p x) (c : Chunk) : (d.addChunk c).Holds p x :=
  ((addChunk_mono d c p).map Pt.x).subset h

lemma kept_addChunk (h : d.Enough p ∨ ∀ i ∈ added, d.Holds p ⟨i⟩) (c : Chunk) :
    (d.addChunk c).Enough p ∨ ∀ i ∈ c.index :: added, (d.addChunk c).Holds p ⟨i⟩ := by
  rcases h with hen | hall
  · exact .inl (hen.addChunk c)
  rcases addChunk_holds d c p with hen | hnew
  · exact .inl hen
  · right
    rintro i (_ | ⟨_, hi⟩)
    · rwa [xAt_toNat] at hnew
    · exact (hall i hi).addChunk c

lemma Counts.addChunk (h : d.Counts added) (c : Chunk) : (d.addChunk c).Counts (c.index :: added) := by
  refine ⟨?_, fun p => kept_addChunk (h.kept p) c⟩
  intro p x hx
  rcases holds_of_addChunk hx with hx | rfl
  · exact List.mem_cons_of_mem _ (h.held p x hx)
  · exact List.mem_cons_self

lemma Counts.length_le (h : d.Counts added) (hnodup : ((d.pts p).map Pt.x).Nodup) :
    (d.pts p).length ≤ added.toFinset.card := by
  have hvals : ((d.pts p).map fun q => q.x.value).Nodup := by
    have hinj : Function.Injective GF16.value := fun a b hab => GF16.ext hab
    have hmap := hnodup.map hinj
    rwa [List.map_map] at hmap
  have hsub : ((d.pts p).map fun q => q.x.value).toFinset ⊆ added.toFinset := by
    intro v hv
    obtain ⟨q, hq, rfl⟩ := List.mem_map.mp (List.mem_toFinset.mp hv)
    exact List.mem_toFinset.mpr (h.held p q.x (List.mem_map_of_mem hq))
  calc (d.pts p).length = ((d.pts p).map fun q => q.x.value).toFinset.card := by
        rw [List.toFinset_card_of_nodup hvals, List.length_map]
    _ ≤ added.toFinset.card := Finset.card_le_card hsub

lemma card_le_of_holds (h : ∀ i ∈ added, d.Holds p ⟨i⟩) : added.toFinset.card ≤ (d.pts p).length := by
  have hsub : added.toFinset ⊆ ((d.pts p).map fun q => q.x.value).toFinset := by
    intro i hi
    obtain ⟨q, hq, hx⟩ := List.mem_map.mp (h i (List.mem_toFinset.mp hi))
    exact List.mem_toFinset.mpr (List.mem_map.mpr ⟨q, hq, by rw [hx]⟩)
  calc added.toFinset.card ≤ ((d.pts p).map fun q => q.x.value).toFinset.card :=
        Finset.card_le_card hsub
    _ ≤ ((d.pts p).map fun q => q.x.value).length := List.toFinset_card_le _
    _ = (d.pts p).length := List.length_map _

lemma Counts.enough_iff {m : Payload} (hd : Collects m d) (h : d.Counts added) :
    (∀ p, d.Enough p) ↔ (m.bytes.length + 31) / 32 ≤ added.toFinset.card := by
  have heven := m.even
  have hcount : m.count = m.bytes.length / 2 := rfl
  constructor
  · intro hen
    -- slot 0 needs the most points
    have hneed := (hen 0).trans (h.length_le (hd.nodup 0))
    by_contra hlt
    have h0 : added.toFinset.card < necessaryPoints d.pointsNeeded (0 : Fin 16) := by
      refine (lt_necessaryPoints (0 : Fin 16).isLt).mpr ?_
      rw [hd.needed, hcount]
      change 16 * added.toFinset.card + 0 < _
      omega
    omega
  · intro hcard p
    rcases h.kept p with hen | hall
    · exact hen
    · refine le_trans ?_ (card_le_of_holds hall)
      by_contra hgt
      have hlt := (lt_necessaryPoints p.isLt).mp (Nat.lt_of_not_le hgt)
      rw [hd.needed, hcount] at hlt
      omega

end Decoder

/-- Runs of the encoder of a message and a decoder of its length, with the chunks produced and the
indices of the chunks added so far. -/
inductive Transfer (m : Payload) : Encoder → List Chunk → Decoder → List UInt16 → Prop
  | start {e d} : newEncoder m.bytes = .ok e → newDecoder m.bytes.length = .ok d →
      Transfer m e [] d []
  | chunkAt {e produced d added} (idx : UInt16) : Transfer m e produced d added →
      Transfer m (e.chunkAt idx).2 ((e.chunkAt idx).1 :: produced) d added
  | nextChunk {e produced d added} : Transfer m e produced d added →
      Transfer m e.nextChunk.2 (e.nextChunk.1 :: produced) d added
  | addChunk {e produced d added c} : Transfer m e produced d added → c ∈ produced →
      Transfer m e produced (d.addChunk c) (c.index :: added)

namespace Transfer
variable {m : Payload} {e : Encoder} {produced : List Chunk} {d : Decoder} {added : List UInt16}

lemma served (h : Transfer m e produced d added) : e.Rep m ∧ ∀ c ∈ produced, c = m.chunkOf c.index := by
  induction h with
  | start he _ =>
    obtain ⟨e', he', hrep, -⟩ := Encoder.newEncoder_rep m
    cases he.symm.trans he'
    exact ⟨hrep, by simp⟩
  | chunkAt idx _ ih =>
    obtain ⟨e', heq, hrep, -⟩ := Encoder.chunkAt_spec ih.1 idx
    rw [heq]
    exact ⟨hrep, List.forall_mem_cons.mpr ⟨rfl, ih.2⟩⟩
  | nextChunk _ ih =>
    obtain ⟨e', heq, hrep, -⟩ := Encoder.nextChunk_spec ih.1
    rw [heq]
    exact ⟨hrep, List.forall_mem_cons.mpr ⟨rfl, ih.2⟩⟩
  | addChunk _ _ ih => exact ih

lemma gathered (h : Transfer m e produced d added) : d.Collects m ∧ d.Counts added := by
  induction h with
  | start _ hd =>
    rw [newDecoder, if_neg (by simp [m.even])] at hd
    cases hd
    exact ⟨Decoder.empty_collects m, Decoder.empty_counts _⟩
  | chunkAt _ _ ih => exact ih
  | nextChunk _ ih => exact ih
  | addChunk hrun hc ih =>
    refine ⟨?_, ih.2.addChunk _⟩
    rw [hrun.served.2 _ hc]
    exact Decoder.addChunk_collects ih.1 _

end Transfer

/-- At every point of a transfer the decoder returns nothing while fewer than `⌈length / 32⌉` distinct
indices have been added, and the message from then on. -/
theorem sufficient_chunks_decode {m : Payload} {e : Encoder} {produced : List Chunk} {d : Decoder}
    {added : List UInt16} (h : Transfer m e produced d added) :
    (d.decodedMessage = none ↔ added.toFinset.card < (m.bytes.length + 31) / 32) ∧
      (d.decodedMessage ≠ none → d.decodedMessage = some m.bytes) := by
  obtain ⟨hcol, hcounts⟩ := h.gathered
  have hiff := hcounts.enough_iff hcol
  rcases Decoder.decodedMessage_eq hcol with ⟨hen, heq⟩ | ⟨hen, heq⟩
  · have hle := hiff.mp hen
    refine ⟨⟨fun hnone => ?_, fun hlt => absurd hle (Nat.not_le.mpr hlt)⟩, fun _ => heq⟩
    rw [heq] at hnone
    cases hnone
  · have hlt := Nat.lt_of_not_le (mt hiff.mpr hen)
    exact ⟨⟨fun _ => hlt, fun _ => heq⟩, fun hsome => absurd heq hsome⟩

/-- A two-byte message is decoded from the one chunk at index 7. -/
theorem sufficient_chunks_decode_two_bytes :
    ∃ (m : Payload) (e : Encoder) (produced : List Chunk) (d : Decoder),
      m.bytes = [1, 2] ∧ Transfer m e produced d [7] ∧ d.decodedMessage = some [1, 2] := by
  let m : Payload := ⟨[1, 2], by decide, by decide⟩
  obtain ⟨e, he, -⟩ := Encoder.newEncoder_rep m
  have hstart : Transfer m e [] (.empty m.bytes.length) [] := .start he (if_neg (by decide))
  have hrun : Transfer m _ _ _ [7] := (hstart.chunkAt 7).addChunk List.mem_cons_self
  refine ⟨m, _, _, _, rfl, hrun, (sufficient_chunks_decode hrun).2 fun hnone => ?_⟩
  have hlt := (sufficient_chunks_decode hrun).1.mp hnone
  simp [m] at hlt

end LibSignal.Chunked
