import LibSignal.Chunked.Codec

/-!
# The transport of one message

The interface of the chunk code the state machine works with, in terms of the message's bytes: `Encoder.Serves
b e` (the encoder sends `b`), `IsChunk b c` (the chunk is one of `b`) and `Decoder.Gathers b d` (the decoder
has only seen chunks of `b`).
-/

namespace LibSignal.Chunked

def Transportable (n : Nat) : Prop := n % 2 = 0 ∧ 32 ≤ n ∧ n ≤ 2 ^ 21

instance (n : Nat) : Decidable (Transportable n) := by
  unfold Transportable; infer_instance

/-- A transportable byte string as a message of the code. -/
def Transportable.payload {b : Bytes} (h : Transportable b.length) : Payload := ⟨b, h.1, h.2.2⟩

variable {b : Bytes}

lemma Transportable.full (h : Transportable b.length) : h.payload.Full := by
  intro p
  have hlen := h.2.1
  have hp := p.isLt
  refine (lt_necessaryPoints hp).mpr ?_
  change 16 * 0 + p.val < b.length / 2
  omega

def Encoder.Serves (b : Bytes) (e : Encoder) : Prop :=
  ∃ h : Transportable b.length, Encoder.Rep h.payload e

def IsChunk (b : Bytes) (c : Chunk) : Prop :=
  ∃ h : Transportable b.length, c = h.payload.chunkOf c.index

/-- The decoder has only seen chunks of the byte string. -/
def Decoder.Gathers (b : Bytes) (d : Decoder) : Prop :=
  ∃ h : Transportable b.length, Decoder.Collects h.payload d

lemma newEncoder_serves (h : Transportable b.length) : ∃ e, newEncoder b = .ok e ∧ e.Serves b ∧ e.idx = 0 := by
  obtain ⟨e, he, hrep, hi⟩ := Encoder.newEncoder_rep h.payload
  exact ⟨e, he, ⟨h, hrep⟩, hi⟩

lemma Encoder.Serves.nextChunk {e : Encoder} (he : e.Serves b) :
    ∃ c e', e.nextChunk = (c, e') ∧ IsChunk b c ∧ c.index = e.idx ∧ e'.Serves b ∧ e'.idx = e.idx + 1 := by
  obtain ⟨h, hrep⟩ := he
  obtain ⟨e', heq, hrep', hi⟩ := Encoder.nextChunk_spec hrep
  exact ⟨_, e', heq, ⟨h, rfl⟩, rfl, ⟨h, hrep'⟩, hi⟩

lemma Encoder.Serves.reload {e : Encoder} (he : e.Serves b) :
    ∃ e', encoderFromProto (encoderToProto e) = .ok e' ∧ e'.Serves b ∧ e'.idx = e.idx := by
  obtain ⟨h, hrep⟩ := he
  obtain ⟨e', heq, hrep', hi⟩ := hrep.reload h.full
  exact ⟨e', heq, ⟨h, hrep'⟩, hi⟩

namespace Decoder

variable {b : Bytes} {d : Decoder} {k : Nat}

lemma empty_gathers (h : Transportable b.length) : (empty b.length).Gathers b :=
  ⟨h, empty_collects h.payload⟩

lemma Gathers.addChunk (hd : d.Gathers b) {c : Chunk} (hc : IsChunk b c) : (d.addChunk c).Gathers b := by
  obtain ⟨h, hcol⟩ := hd
  obtain ⟨h', heq⟩ := hc
  rw [heq]
  exact ⟨h, addChunk_collects hcol c.index⟩

lemma Gathers.decoded {b' : Bytes} (hd : d.Gathers b) (h : d.decodedMessage = some b') : b' = b := by
  obtain ⟨h', hcol⟩ := hd
  exact hcol.decoded h

/-! ## Progress -/

lemma pushPoint_mono (d : Decoder) (p : Fin 16) (q : Pt) (p' : Fin 16) :
    (d.pts p').Sublist ((d.pushPoint p q).pts p') := by
  rcases pushPoint_cases d p q with ⟨_, he⟩ | ⟨_, he⟩
  · rw [he]
  · rw [he]
    by_cases hp : p' = p
    · subst hp
      simp
    · simp [Function.update_of_ne hp]

lemma addSlot_mono (c : Chunk) (d : Decoder) (i p : Fin 16) : (d.pts p).Sublist ((addSlot c d i).pts p) := by
  rw [addSlot_eq]
  split
  · exact pushPoint_mono d i _ p
  · exact List.Sublist.refl _

lemma foldl_addSlot_mono (c : Chunk) (ps : List (Fin 16)) (d : Decoder) (p : Fin 16) :
    (d.pts p).Sublist ((ps.foldl (addSlot c) d).pts p) := by
  induction ps generalizing d with
  | nil => exact List.Sublist.refl _
  | cons i ps ih => exact (addSlot_mono c d i p).trans (ih _)

lemma addChunk_mono (d : Decoder) (c : Chunk) (p : Fin 16) : (d.pts p).Sublist ((d.addChunk c).pts p) := by
  rw [Decoder.addChunk]
  exact foldl_addSlot_mono c (List.finRange 16) d p

lemma addChunk_holds (d : Decoder) (c : Chunk) (p : Fin 16) :
    (d.addChunk c).Enough p ∨ (d.addChunk c).Holds p (xAt c.index.toNat) := by
  have hslot : ∀ d : Decoder, (addSlot c d p).Enough p ∨ (addSlot c d p).Holds p (xAt c.index.toNat) := by
    intro d
    rw [addSlot_eq]
    split
    · right
      rcases pushPoint_cases d p ⟨xAt c.index.toNat, c.slot p⟩ with ⟨hh, he⟩ | ⟨_, he⟩
      · rw [he]; exact hh
      · rw [he]; simp [Holds]
    · rename_i hno
      left
      exact Nat.le_of_not_lt (not_or.mp hno).2
  have hmem : p ∈ List.finRange 16 := List.mem_finRange p
  obtain ⟨before, after, hsplit⟩ := List.append_of_mem hmem
  have hfold : d.addChunk c
      = after.foldl (addSlot c) (addSlot c (before.foldl (addSlot c) d) p) := by
    rw [Decoder.addChunk, hsplit, List.foldl_append, List.foldl_cons]
  have hmono := foldl_addSlot_mono c after (addSlot c (before.foldl (addSlot c) d) p) p
  rw [hfold]
  rcases hslot (before.foldl (addSlot c) d) with hen | hh
  · left
    rw [Enough, foldl_addSlot_pointsNeeded]
    exact le_trans hen hmono.length_le
  · exact .inr ((hmono.map Pt.x).subset hh)

/-- Every slot has enough points or holds the `k` indices before `idx`. -/
def Fresh (d : Decoder) (idx : UInt16) (k : Nat) : Prop :=
  ∀ p, d.Enough p ∨ ∀ j < k, d.Holds p ⟨idx - (j + 1).toUInt16⟩

lemma fresh_zero (d : Decoder) (idx : UInt16) : d.Fresh idx 0 :=
  fun _ => .inr fun _ hj => absurd hj (Nat.not_lt_zero _)

lemma Fresh.addChunk {c : Chunk} (h : d.Fresh c.index k) : (d.addChunk c).Fresh (c.index + 1) (k + 1) := by
  intro p
  have hmono := addChunk_mono d c p
  rcases h p with hen | hheld
  · left
    rw [Enough, addChunk_pointsNeeded]
    exact le_trans hen hmono.length_le
  · rcases addChunk_holds d c p with hen | hnew
    · exact .inl hen
    · right
      intro j hj
      cases j with
      | zero =>
        have h0 : c.index + 1 - (0 + 1 : Nat).toUInt16 = c.index := by
          change c.index + 1 - 1 = c.index
          exact add_sub_cancel_right c.index 1
        have hx : xAt c.index.toNat = ⟨c.index⟩ := GF16.ext (by simp [xAt])
        rw [h0, ← hx]
        exact hnew
      | succ j =>
        have hstep : c.index + 1 - (j + 1 + 1).toUInt16 = c.index - (j + 1).toUInt16 := by
          have hcast : (j + 1 + 1).toUInt16 = (j + 1).toUInt16 + 1 := by
            simp [Nat.toUInt16]
          rw [hcast]
          exact add_sub_add_right_eq_sub c.index (j + 1).toUInt16 1
        rw [hstep]
        exact (hmono.map Pt.x).subset (hheld j (by omega))

lemma enough_of_holds {p : Fin 16} {idx : UInt16} (hk : k < 65536)
    (hneed : necessaryPoints d.pointsNeeded p ≤ k) (h : ∀ j < k, d.Holds p ⟨idx - (j + 1).toUInt16⟩) :
    d.Enough p := by
  let xs := (List.range k).map fun j => (⟨idx - (j + 1).toUInt16⟩ : GF16)
  have hnodup : xs.Nodup := by
    refine List.Nodup.map_on ?_ List.nodup_range
    intro i hi j hj hij
    have hi' := List.mem_range.mp hi
    have hj' := List.mem_range.mp hj
    have hval : idx - (i + 1).toUInt16 = idx - (j + 1).toUInt16 := congrArg GF16.value hij
    have hsub : (i + 1).toUInt16 = (j + 1).toUInt16 := sub_right_injective hval
    have hnat := congrArg UInt16.toNat hsub
    simp only [Nat.toUInt16, UInt16.toNat_ofNat'] at hnat
    omega
  have hsub : xs ⊆ (d.pts p).map Pt.x := by
    intro x hx
    obtain ⟨j, hj, rfl⟩ := List.mem_map.mp hx
    exact h j (List.mem_range.mp hj)
  have hlen := (hnodup.subperm hsub).length_le
  rw [List.length_map, List.length_map, List.length_range] at hlen
  exact hneed.trans hlen

lemma Fresh.decoded {idx : UInt16} {n : Nat} (h : d.Fresh idx k) (hneed : d.pointsNeeded = n / 2)
    (hk : k < 65536) (hn : n ≤ 32 * k) : d.decodedMessage ≠ none := by
  refine decodedMessage_of_enough fun p => ?_
  rcases h p with hen | hheld
  · exact hen
  · refine enough_of_holds hk ?_ hheld
    by_contra hgt
    have hlt := (lt_necessaryPoints p.isLt).mp (Nat.lt_of_not_le hgt)
    rw [hneed] at hlt
    omega

end Decoder

end LibSignal.Chunked
