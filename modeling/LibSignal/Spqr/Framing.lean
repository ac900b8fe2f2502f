import LibSignal.Spqr.Message

/-!
# Message framing

The v1 message has no length field: the parsers stop by themselves. With the round trip this makes the format
free of prefixes (`message_framing`).
-/

namespace LibSignal.Spqr
open Chunked

/-- A parser result that lies within the input and does not depend on what follows it. -/
def Stops {α : Type} (parse : Bytes → Option (α × Nat)) (b : Bytes) : Prop :=
  ∀ a n, parse b = some (a, n) → n ≤ b.length ∧ ∀ t, parse (b ++ t) = some (a, n)

variable {b : Bytes} {i : Nat}

lemma readVarint_append {limit : Nat} {val v : UInt64} {n : Nat} (h : readVarint limit i val b = some (v, n)) :
    n ≤ i + b.length ∧ ∀ t, readVarint limit i val (b ++ t) = some (v, n) := by
  induction limit generalizing i val b with
  | zero => cases h
  | succ limit ih =>
    cases b with
    | nil => cases h
    | cons c rest =>
      rw [readVarint] at h
      simp only [List.length_cons, List.cons_append, readVarint]
      split at h
      · cases h
        exact ⟨by omega, fun t => if_pos ‹_›⟩
      · obtain ⟨hle, happend⟩ := ih h
        refine ⟨by omega, fun t => ?_⟩
        rw [if_neg ‹_›]
        exact happend t

lemma decodeVarint_stops (b : Bytes) (i : Nat) : Stops (fun b => decodeVarint b i) b := by
  intro v n h
  obtain ⟨⟨w, k⟩, hread, heq⟩ := Option.map_eq_some_iff.mp h
  cases heq
  obtain ⟨hle, happend⟩ := readVarint_append hread
  rw [List.length_drop] at hle
  have hin : i < b.length := by
    by_contra hout
    rw [List.drop_eq_nil_of_le (not_lt.mp hout)] at hread
    cases hread
  refine ⟨by dsimp only; omega, fun t => ?_⟩
  change (readVarint 10 0 0 ((b ++ t).drop i)).map _ = _
  rw [List.drop_append_of_le_length hin.le, happend t]
  rfl

lemma decodeChunk_stops (b : Bytes) (i : Nat) : Stops (fun b => decodeChunk b i) b := by
  intro c n h
  obtain ⟨⟨idx, start⟩, hidx, h⟩ := Option.bind_eq_some_iff.mp h
  obtain ⟨_, happend⟩ := decodeVarint_stops b i idx start hidx
  dsimp only at h
  split at h
  · cases h
  · rename_i hsmall
    split at h
    · cases h
    · rename_i hlong
      cases h
      refine ⟨not_lt.mp hlong, fun t => ?_⟩
      have hlong' : ¬ start + chunkSize > (b ++ t).length := by
        rw [List.length_append]
        omega
      have hdata : ∀ k : Fin 32, (b ++ t).getD (start + k) 0 = b.getD (start + k) 0 := by
        intro k
        have hk : start + k < b.length := by
          have := k.isLt
          simp only [chunkSize] at hlong
          omega
        rw [List.getD_eq_getElem?_getD, List.getD_eq_getElem?_getD, List.getElem?_append_left hk]
      have hread : decodeVarint (b ++ t) i = some (idx, start) := happend t
      change (decodeVarint (b ++ t) i).bind _ = _
      rw [hread, Option.bind_some]
      dsimp only
      rw [if_neg hsmall, if_neg hlong']
      simp only [hdata]

/-! Parsers that stop, put together. -/

lemma Stops.map {α β : Type} {parse : Bytes → Option (α × Nat)} (h : Stops parse b) (f : α → β) :
    Stops (fun b => (parse b).map fun r => (f r.1, r.2)) b := by
  intro a n hmap
  obtain ⟨⟨a', n'⟩, hparse, heq⟩ := Option.map_eq_some_iff.mp hmap
  cases heq
  obtain ⟨hle, happend⟩ := h a' n' hparse
  refine ⟨hle, fun t => ?_⟩
  dsimp only
  rw [happend t]
  rfl

lemma Stops.ite {α : Type} {parse parse' : Bytes → Option (α × Nat)} {c : Prop} [Decidable c]
    (h : Stops parse b) (h' : Stops parse' b) : Stops (fun b => if c then parse b else parse' b) b := by
  intro a n hparse
  by_cases hc : c
  · simp only [if_pos hc] at hparse ⊢
    exact h a n hparse
  · simp only [if_neg hc] at hparse ⊢
    exact h' a n hparse

lemma stops_pure {α : Type} (a : α) (hi : i ≤ b.length) : Stops (fun _ => some (a, i)) b := by
  rintro _ _ ⟨⟩
  exact ⟨hi, fun _ => rfl⟩

lemma stops_none {α : Type} (b : Bytes) : Stops (fun _ => (none : Option (α × Nat))) b := nofun

lemma decodePayload_stops (mt : UInt8) (hi : i ≤ b.length) : Stops (fun b => decodePayload b mt i) b := by
  have hchunk := decodeChunk_stops b i
  refine (stops_pure _ hi).ite ((stops_pure _ hi).ite ?_)
  refine (hchunk.map Payload.hdr).ite ((hchunk.map Payload.ek).ite ?_)
  refine (hchunk.map Payload.ekCt1Ack).ite ((hchunk.map Payload.ct1).ite ?_)
  exact (hchunk.map Payload.ct2).ite (stops_none b)

lemma deserializePreamble_append {pre : MessagePreamble} (hb : b ≠ []) (h : deserializePreamble b = some pre)
    (t : Bytes) : deserializePreamble (b ++ t) = some pre := by
  cases b with
  | nil => exact absurd rfl hb
  | cons version rest =>
    rw [deserializePreamble] at h
    obtain ⟨⟨epoch, i⟩, hepoch, h⟩ := Option.bind_eq_some_iff.mp h
    dsimp only at h
    split at h
    · cases h
    · rename_i hzero
      obtain ⟨⟨index, j⟩, hindex, h⟩ := Option.bind_eq_some_iff.mp h
      have hepoch' : decodeVarint (version :: rest ++ t) 1 = some (epoch, i) :=
        (decodeVarint_stops _ 1 epoch i hepoch).2 t
      have hindex' : decodeVarint (version :: rest ++ t) i = some (index, j) :=
        (decodeVarint_stops _ i index j hindex).2 t
      change (decodeVarint (version :: rest ++ t) 1).bind _ = _
      rw [hepoch', Option.bind_some]
      dsimp only
      rw [if_neg hzero]
      change (decodeVarint (version :: rest ++ t) i).bind _ = _
      rw [hindex', Option.bind_some]
      exact h

lemma deserializeMessage_append {m : V1Message} {index : UInt32} {n : Nat}
    (h : deserializeMessage b = some (m, index, n)) :
    n ≤ b.length ∧ ∀ t, deserializeMessage (b ++ t) = some (m, index, n) := by
  rw [deserializeMessage] at h
  split at h
  · cases h
  · rename_i hguard
    rw [not_or, not_not] at hguard
    obtain ⟨hlen, hhead⟩ := hguard
    have hb : b ≠ [] := fun hnil => hlen (hnil ▸ rfl)
    obtain ⟨pre, hpre, h⟩ := Option.bind_eq_some_iff.mp h
    split at h
    · cases h
    · rename_i mt hmt
      obtain ⟨⟨payload, k⟩, hpay, h⟩ := Option.bind_eq_some_iff.mp h
      cases h
      have hin : pre.at_ < b.length := (List.getElem?_eq_some_iff.mp hmt).1
      obtain ⟨hle, happend⟩ := decodePayload_stops mt (Nat.succ_le_of_lt hin) payload n hpay
      refine ⟨hle, fun t => ?_⟩
      have hpay' : decodePayload (b ++ t) mt (pre.at_ + 1) = some (payload, n) := happend t
      have hguard' : ¬ ((b ++ t).length = 0 ∨ (b ++ t).head? ≠ some versionByteV1) := by
        rw [not_or, not_not, List.head?_append_of_ne_nil _ hb]
        exact ⟨fun h0 => hb (List.append_eq_nil_iff.mp (List.length_eq_zero_iff.mp h0)).1, hhead⟩
      rw [deserializeMessage, if_neg hguard', deserializePreamble_append hb hpre t]
      have hmt' : (b ++ t)[pre.at_]? = some mt := by rw [List.getElem?_append_left hin, hmt]
      simp only [Option.bind_eq_bind, Option.bind_some, hmt', hpay']

/-- The framing of v1 messages: a message is read back in front of any bytes, with its index and its length;
the preamble parser reads the same version, epoch and index; and no proper beginning of a serialized message
is accepted. -/
theorem message_framing (m : V1Message) (he : 1 ≤ m.epoch) (hack : m.payload ≠ .ct1Ack false) (index : UInt32) :
    (∀ t, deserializeMessage (serializeMessage m index ++ t)
      = some (m, index, (serializeMessage m index).length)) ∧
    (∀ t, ∃ n, deserializePreamble (serializeMessage m index ++ t) = some ⟨versionByteV1, m.epoch, index, n⟩) ∧
    ∀ b, b <+: serializeMessage m index → b ≠ serializeMessage m index → deserializeMessage b = none := by
  have hzero : m.epoch ≠ 0 := by
    intro h
    rw [h] at he
    exact absurd he (by decide)
  have hround := deserializeMessage_serialize hzero hack index
  refine ⟨hround, fun t => ?_, fun b hbegin hne => ?_⟩
  · obtain ⟨n, hpre⟩ := deserializePreamble_serialize hzero index
    have hnil : serializeMessage m index ≠ [] := by
      rw [serializeMessage_eq, List.append_assoc]
      exact List.append_ne_nil_of_right_ne_nil _ (List.cons_ne_nil _ _)
    exact ⟨n, deserializePreamble_append hnil hpre t⟩
  · obtain ⟨t, ht⟩ := hbegin
    cases hb : deserializeMessage b with
    | none => rfl
    | some r =>
      -- with its rest appended the beginning would be the message, read to its end
      obtain ⟨m', index', n⟩ := r
      obtain ⟨hle, happend⟩ := deserializeMessage_append hb
      have hfull := hround []
      rw [List.append_nil, ← ht, happend t] at hfull
      cases hfull
      rw [List.length_append] at hle
      have ht0 : t = [] := List.length_eq_zero_iff.mp (by omega)
      rw [ht0, List.append_nil] at ht
      exact absurd ht hne

/-- The theorem on a message of epoch 1 without payload. -/
theorem message_framing_first :
    deserializeMessage (serializeMessage ⟨1, .none⟩ 7 ++ [42]) = some (⟨1, .none⟩, 7, 4) :=
  (message_framing ⟨1, .none⟩ (by decide) (by decide) 7).1 [42]

end LibSignal.Spqr
