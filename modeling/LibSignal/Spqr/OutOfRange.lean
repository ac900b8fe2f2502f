import LibSignal.Spqr.Checked

/-!
# When a call is out of range

A stored state is read back without checks on three things the operations rely on: that a receive history is a
whole number of records, that the decoder of a transport asks for at least its fixed part, and that no
retained epoch is `2^63` or more behind the current one.
-/

namespace LibSignal.Spqr
open Chunked Crypto Lib

/-! ## Reading a state -/

/-- The stored receive histories are whole. -/
def ChainPB.Whole (pb : ChainPB) : Prop :=
  ∀ l ∈ pb.links, ∀ d, l.recv = some d → d.prev.length % keyHistoryEntry = 0

/-- The receive histories of the stored chain, if there is one, are whole. -/
def PqRatchetState.Whole (st : PqRatchetState) : Prop := ∀ pb, st.chain = some pb → pb.Whole

lemma chainEpochDirectionFromProto_avoids (pb : Option DirectionPB) :
    Avoids .indexPanic (chainEpochDirectionFromProto pb)
      fun d => ∃ dpb, pb = some dpb ∧ d.prev.data = dpb.prev := by
  cases pb with
  | none => exact .error _ (by rintro ⟨⟩)
  | some dpb =>
    rw [chainEpochDirectionFromProto]
    split
    · exact .error _ (by rintro ⟨⟩)
    · exact .ok ⟨dpb, rfl, rfl⟩

lemma chainEpochFromProto_avoids (l : EpochPB) : Avoids .indexPanic (chainEpochFromProto l)
      fun e => ∃ dpb, l.recv = some dpb ∧ e.recv.prev.data = dpb.prev :=
  (chainEpochDirectionFromProto_avoids _).bind fun _ _ _ =>
    (chainEpochDirectionFromProto_avoids _).bind fun _ _ h => .ok h

lemma chainFromProto_whole {pb : ChainPB} {c : Chain} (hw : pb.Whole) (h : chainFromProto pb = .ok c) :
    c.Whole := by
  rw [chainFromProto] at h
  cases hp : pb.params with
  | none =>
    rw [hp] at h
    cases h
  | some params =>
    rw [hp] at h
    obtain ⟨links, hlinks, h⟩ := bind_eq_ok h
    cases h
    intro e he
    obtain ⟨l, hl, hle⟩ := mapM_mem_ok hlinks he
    obtain ⟨dpb, hrecv, hdata⟩ := (chainEpochFromProto_avoids l).post e hle
    rw [KeyHistory.Whole, hdata]
    exact hw l hl dpb hrecv

section
variable [Hash]

variable {m : V1Message} {pb : V1StatePB} {st : PqRatchetState}

lemma PqRatchetState.Whole.chainFrom (hw : st.Whole) {c : Chain}
    (h : chainFrom st.chain st.versionNegotiation = .ok c) : c.Whole := by
  cases hpb : st.chain with
  | some pb =>
    rw [hpb] at h
    exact chainFromProto_whole (hw pb hpb) h
  | none =>
    rw [hpb] at h
    cases hvn : st.versionNegotiation with
    | none =>
      rw [hvn] at h
      cases h
    | some vn =>
      rw [hvn] at h
      change chainFromVersionNegotiation vn = .ok c at h
      rw [chainFromVersionNegotiation] at h
      split at h
      · cases h
      · cases h
        intro l hl
        cases List.mem_singleton.mp hl
        rfl

variable [IncrementalKem]

end

end LibSignal.Spqr
