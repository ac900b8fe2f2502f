import LibSignal.Spqr.Alignment

/-!
# Which party brings the exchange forward

`Flow a b r` says that the next message of `a` brings the exchange forward at `b`, and `r` bounds how many
such messages are left until `b` is in its next epoch.
-/

namespace LibSignal.Spqr
open Chunked Crypto
open V1State

inductive Flow : V1State → V1State → Nat → Prop
  | keys {e a a' rcv} : Flow (keysUnsampled e a) (noHeaderReceived e a' rcv) 80
  | header {e a ek dk snd a' rcv k} (hk : k < 3) (hf : rcv.Fresh snd.idx k) :
      Flow (keysSampled e a ek dk snd) (noHeaderReceived e a' rcv) (79 - k)
  | sample {e a hdr rcv a' ek dk snd} :
      Flow (headerReceived e a hdr rcv) (keysSampled e a' ek dk snd) 76
  | ct1First {e a hdr es ct1 snd rcv a' ek dk snd'} :
      Flow (ct1Sampled e a hdr es ct1 snd rcv) (keysSampled e a' ek dk snd') 75
  | ct1 {e a hdr es ct1 snd rcv a' ek dk snd' rcv' k} (hk : k < 30) (hf : rcv'.Fresh snd.idx k) :
      Flow (ct1Sampled e a hdr es ct1 snd rcv) (headerSent e a' ek dk snd' rcv') (74 - k)
  | ct1Ek {e a es ek ct1 snd a' ek' dk snd' rcv' k} (hk : k < 30) (hf : rcv'.Fresh snd.idx k) :
      Flow (ekReceivedCt1Sampled e a es ek ct1 snd) (headerSent e a' ek' dk snd' rcv') (74 - k)
  | ack {e a ek dk ct1 snd a' hdr es ct1' snd' rcv} :
      Flow (ct1Received e a ek dk ct1 snd) (ct1Sampled e a' hdr es ct1' snd' rcv) 44
  | ek {e a ek dk ct1 snd a' hdr es ct1' rcv k} (hk : k < 36) (hf : rcv.Fresh snd.idx k) :
      Flow (ct1Received e a ek dk ct1 snd) (ct1Acknowledged e a' hdr es ct1' rcv) (43 - k)
  | ackEk {e a ek dk ct1 snd a' es ek' ct1' snd'} :
      Flow (ct1Received e a ek dk ct1 snd) (ekReceivedCt1Sampled e a' es ek' ct1' snd') 8
  | ct2First {e a snd a' ek dk ct1 snd'} :
      Flow (ct2Sampled e a snd) (ct1Received e a' ek dk ct1 snd') 7
  | ct2 {e a snd a' dk ct1 rcv k} (hk : k < 5) (hf : rcv.Fresh snd.idx k) :
      Flow (ct2Sampled e a snd) (ekSentCt1Received e a' dk ct1 rcv) (6 - k)
  | turn {e e' a rcv a' snd} (he : e' = e + 1) : Flow (noHeaderReceived e' a rcv) (ct2Sampled e a' snd) 1

namespace Flow
variable {a b a' a'' b' b'' : V1State} {r : Nat}

lemma pos (h : Flow a b r) : 1 ≤ r := by
  cases h <;> omega

lemma le (h : Flow a b r) : r ≤ 80 := by
  cases h <;> omega

lemma epoch (h : Flow a b r) : a.epoch = b.epoch ∨ a.epoch = b.epoch + 1 := by
  cases h with
  | turn he => exact .inr he
  | _ => exact .inl rfl

end Flow

/-! ## Aligned machines -/

variable {p s : V1State}

lemma flow_of_roles (hepoch : s.epoch = p.epoch) (hs : s.tag.isEk = true) (hp : p.tag.isEk = false)
    (hn : s.tag.needs ≤ p.tag.stage) (hn' : p.tag.needs ≤ s.tag.stage) : ∃ r, Flow s p r ∨ Flow p s r := by
  cases s with
  | keysUnsampled =>
    cases p with
    | noHeaderReceived => cases hepoch; exact ⟨_, .inl .keys⟩
    | _ => simp [tag, Tag.isEk, Tag.needs, Tag.stage] at hp hn'
  | keysSampled =>
    cases p with
    | noHeaderReceived => cases hepoch; exact ⟨_, .inl (.header (by decide) (Decoder.fresh_zero _ _))⟩
    | headerReceived => cases hepoch; exact ⟨_, .inr .sample⟩
    | ct1Sampled => cases hepoch; exact ⟨_, .inr .ct1First⟩
    | _ => simp [tag, Tag.isEk, Tag.needs, Tag.stage] at hp hn'
  | headerSent =>
    cases p with
    | ct1Sampled => cases hepoch; exact ⟨_, .inr (.ct1 (by decide) (Decoder.fresh_zero _ _))⟩
    | ekReceivedCt1Sampled =>
      cases hepoch; exact ⟨_, .inr (.ct1Ek (by decide) (Decoder.fresh_zero _ _))⟩
    | _ => simp [tag, Tag.isEk, Tag.needs, Tag.stage] at hp hn hn'
  | ct1Received =>
    cases p with
    | ct1Sampled => cases hepoch; exact ⟨_, .inl .ack⟩
    | ekReceivedCt1Sampled => cases hepoch; exact ⟨_, .inl .ackEk⟩
    | ct1Acknowledged => cases hepoch; exact ⟨_, .inl (.ek (by decide) (Decoder.fresh_zero _ _))⟩
    | ct2Sampled => cases hepoch; exact ⟨_, .inr .ct2First⟩
    | _ => simp [tag, Tag.isEk, Tag.needs, Tag.stage] at hp hn
  | ekSentCt1Received =>
    cases p with
    | ct2Sampled => cases hepoch; exact ⟨_, .inr (.ct2 (by decide) (Decoder.fresh_zero _ _))⟩
    | _ => simp [tag, Tag.isEk, Tag.needs, Tag.stage] at hp hn
  | _ => cases hs

lemma Aligned.flow_ahead {d : Direction} (h : Aligned d s p) (hepoch : s.epoch.toNat = p.epoch.toNat + 1)
    (htag : p.tag = .ct2Sampled) : Flow s p 1 := by
  have hsucc : s.epoch = p.epoch + 1 := by
    have hlt := s.epoch.toNat_lt
    exact UInt64.toNat_inj.mp (by rw [toNat_epoch_succ (by omega), hepoch])
  have hzero : s.tag.needs = 0 := by
    by_contra hne
    have hle := (h.needs hne).epoch_le
    omega
  have hct : s.tag.isEk = false := by
    have hp := h.rolePeer
    rw [htag, ekTurn_switch] at hp
    rw [h.role, hepoch, ekTurn_succ]
    exact hp.symm
  cases p with
  | ct2Sampled e a snd =>
    cases s with
    | noHeaderReceived => exact .turn hsucc
    | _ => simp [tag, Tag.isEk, Tag.needs] at hct hzero
  | _ => cases htag

lemma Aligned.flow {d : Direction} (h : Aligned d s p) : ∃ r, Flow s p r ∨ Flow p s r := by
  have stage_of : ∀ {s p : V1State}, s.epoch = p.epoch → (s.tag.needs ≠ 0 → p.Past s.epoch s.tag.needs) →
      s.tag.needs ≤ p.tag.stage := by
    intro s p heq hneeds
    by_cases h0 : s.tag.needs = 0
    · omega
    · rcases hneeds h0 with hlt | ⟨_, hle⟩
      · rw [heq] at hlt
        omega
      · exact hle
  rcases h.near with hle | ⟨heq, htag⟩
  · rcases h.nearPeer with hle' | ⟨heq, htag⟩
    · have hepoch : s.epoch = p.epoch := UInt64.toNat_inj.mp (le_antisymm hle hle')
      have hn := stage_of hepoch h.needs
      have hn' := stage_of hepoch.symm h.needsPeer
      have hrole : p.tag.isEk = !s.tag.isEk := by
        rw [h.rolePeer, h.role, ekTurn_switch, hepoch]
      cases hs : s.tag.isEk with
      | true => exact flow_of_roles hepoch hs (by rw [hrole, hs]; rfl) hn hn'
      | false =>
        obtain ⟨r, hr⟩ := flow_of_roles hepoch.symm (by rw [hrole, hs]; rfl) hs hn' hn
        exact ⟨r, hr.symm⟩
    · exact ⟨1, .inr (h.symm.flow_ahead heq htag)⟩
  · exact ⟨1, .inl (h.flow_ahead heq htag)⟩

/-! ## A message and its delivery -/

lemma fresh_next {snd snd' : Encoder} {rcv : Decoder} {k n : Nat} (hf : rcv.Fresh snd.idx k)
    (hs : Serving snd) (hl : EncLike snd.nextChunk.2 snd') (hneed : Expecting rcv (32 * n))
    (hn : n < 65536) (hk : k < n) (hdec : (rcv.addChunk snd.nextChunk.1).decodedMessage = none) :
    k + 1 < n ∧ (rcv.addChunk snd.nextChunk.1).Fresh snd'.idx (k + 1) := by
  obtain ⟨m, hm⟩ := hs
  obtain ⟨c, e', hnext, _, hidx, _, hidx'⟩ := hm.nextChunk
  rw [hnext] at hl hdec ⊢
  have hnew : (rcv.addChunk c).Fresh snd'.idx (k + 1) := by
    rw [hl.2, hidx', ← hidx]
    exact Decoder.Fresh.addChunk (by rw [hidx]; exact hf)
  refine ⟨?_, hnew⟩
  by_contra hge
  exact hnew.decoded (hneed.add c) (by omega) (by omega) hdec

section
variable [Hash] [IncrementalKem]

namespace Flow
variable {a b a' a'' b' b'' : V1State} {r : Nat} {rng : Reader} {p : Payload}
  {es es' : Option EpochSecret}

lemma idle (h : Flow a b r) (hsend : b.sendStep rng = .ok (b', p, es)) (hlb : Like b' b'')
    (hrecv : a.recv ⟨b.epoch, p⟩ = .ok (a', es')) (hla : Like a' a'') :
    Flow a'' b'' r ∧ b''.epoch = b.epoch := by
  have hepoch : b''.epoch = b.epoch := hlb.epoch.trans (sendStep_move hsend).1
  refine ⟨?_, hepoch⟩
  cases h with
  | keys =>
    cases hsend
    cases V1State.recv_inv hrecv
    cases hla
    cases hlb
    exact .keys
  | header hk hf =>
    cases hsend
    cases V1State.recv_inv hrecv
    cases hlb
    cases hla with
    | keysSampled he => exact .header hk (by rw [he.2]; exact hf)
  | sample =>
    cases hsend
    cases V1State.recv_inv hrecv
    cases hlb
    cases hla
    exact .sample
  | ct1First =>
    cases hsend
    cases V1State.recv_inv hrecv
    cases hlb
    cases hla
    exact .ct1First
  | ct1 hk hf =>
    cases hsend
    cases hlb
    -- the chunk of the encapsulation key may be the last one
    cases V1State.recv_inv hrecv with
    | ignore => cases hla with
      | ct1Sampled he => exact .ct1 hk (by rw [he.2]; exact hf)
    | moreEk => cases hla with
      | ct1Sampled he => exact .ct1 hk (by rw [he.2]; exact hf)
    | lastEk => cases hla with
      | ekReceivedCt1Sampled he => exact .ct1Ek hk (by rw [he.2]; exact hf)
  | ct1Ek hk hf =>
    cases hsend
    cases hlb
    cases V1State.recv_inv hrecv with
    | ignore => cases hla with
      | ekReceivedCt1Sampled he => exact .ct1Ek hk (by rw [he.2]; exact hf)
    | ekThenAck hp => rcases hp with hp | ⟨_, hp⟩ <;> cases hp
  | ack =>
    cases hsend
    cases V1State.recv_inv hrecv
    cases hlb
    cases hla
    exact .ack
  | ek hk hf =>
    cases hsend
    cases V1State.recv_inv hrecv
    cases hlb
    cases hla with
    | ct1Received he => exact .ek hk (by rw [he.2]; exact hf)
  | ackEk =>
    cases hsend
    cases V1State.recv_inv hrecv
    cases hlb
    cases hla
    exact .ackEk
  | ct2First =>
    cases hsend
    cases hlb
    cases V1State.recv_inv hrecv with
    | ignore => cases hla; exact .ct2First
    | nextEpoch hgt => exact absurd hgt (UInt64.lt_irrefl _)
  | ct2 hk hf =>
    cases hsend
    cases hlb
    cases V1State.recv_inv hrecv with
    | ignore => cases hla with
      | ct2Sampled he => exact .ct2 hk (by rw [he.2]; exact hf)
    | nextEpoch hgt => exact absurd hgt (UInt64.lt_irrefl _)
  | turn he =>
    cases hsend
    cases hlb
    cases V1State.recv_inv hrecv
    cases hla
    exact .turn he

/-- A message of the first party brings the exchange forward. -/
lemma forward (h : Flow a b r) (hsmall : b.epoch.toNat + 1 < 2 ^ 64) (ha : a.Wf) (hb : b.Wf)
    (hsend : a.sendStep rng = .ok (a', p, es)) (hla : Like a' a'')
    (hrecv : b.recv ⟨a.epoch, p⟩ = .ok (b', es')) (hlb : Like b' b'') :
    ∃ r', (Flow a'' b'' r' ∧ 81 * b.epoch.toNat + r' < 81 * b''.epoch.toNat + r) ∨
      (Flow b'' a'' r' ∧ 81 * b.epoch.toNat + r' < 81 * a''.epoch.toNat + r) := by
  cases h with
  | keys =>
    obtain ⟨_, _, snd, _, _, _, hr⟩ := sendHdrChunk_inv hsend
    cases hr
    cases hla
    cases V1State.recv_inv hrecv with
    | ignore _ hidle => cases hidle rfl
    | moreHdr =>
      cases hlb
      exact ⟨79, .inl ⟨.header (by decide) (Decoder.fresh_zero _ _), Nat.lt_succ_self _⟩⟩
    | lastHdr =>
      cases hlb
      exact ⟨76, .inr ⟨.sample, Nat.add_lt_add_left (by decide) _⟩⟩
  | header hk hf =>
    cases hsend
    cases hla with
    | keysSampled he =>
      cases V1State.recv_inv hrecv with
      | ignore _ hidle => cases hidle rfl
      | moreHdr hdec =>
        obtain ⟨hk', hf'⟩ := fresh_next hf ha.2 he (n := 3) hb (by decide) hk hdec
        cases hlb
        exact ⟨_, .inl ⟨.header hk' hf', Nat.add_lt_add_left (by omega) _⟩⟩
      | lastHdr =>
        cases hlb
        exact ⟨76, .inr ⟨.sample, Nat.add_lt_add_left (by omega) _⟩⟩
  | sample =>
    obtain ⟨_, _, snd, _, _, _, hr⟩ := sendCt1_inv hsend
    cases hr
    cases hla
    cases V1State.recv_inv hrecv with
    | ignore _ hidle => cases hidle rfl
    | firstCt1 =>
      cases hlb
      exact ⟨74, .inl ⟨.ct1 (by decide) (Decoder.fresh_zero _ _), Nat.add_lt_add_left (by decide) _⟩⟩
  | ct1First =>
    cases hsend
    cases hla
    cases V1State.recv_inv hrecv with
    | ignore _ hidle => cases hidle rfl
    | firstCt1 =>
      cases hlb
      exact ⟨74, .inl ⟨.ct1 (by decide) (Decoder.fresh_zero _ _), Nat.lt_succ_self _⟩⟩
  | ct1 hk hf =>
    cases hsend
    cases hla with
    | ct1Sampled he =>
      cases V1State.recv_inv hrecv with
      | ignore _ hidle => cases hidle rfl
      | moreCt1 hdec =>
        obtain ⟨hk', hf'⟩ := fresh_next hf ha.1 he (n := 30) hb.2 (by decide) hk hdec
        cases hlb
        exact ⟨_, .inl ⟨.ct1 hk' hf', Nat.add_lt_add_left (by omega) _⟩⟩
      | lastCt1 =>
        cases hlb
        exact ⟨44, .inr ⟨.ack, Nat.add_lt_add_left (by omega) _⟩⟩
  | ct1Ek hk hf =>
    cases hsend
    cases hla with
    | ekReceivedCt1Sampled he =>
      cases V1State.recv_inv hrecv with
      | ignore _ hidle => cases hidle rfl
      | moreCt1 hdec =>
        obtain ⟨hk', hf'⟩ := fresh_next hf ha he (n := 30) hb.2 (by decide) hk hdec
        cases hlb
        exact ⟨_, .inl ⟨.ct1Ek hk' hf', Nat.add_lt_add_left (by omega) _⟩⟩
      | lastCt1 =>
        cases hlb
        exact ⟨8, .inr ⟨.ackEk, Nat.add_lt_add_left (by omega) _⟩⟩
  | ack =>
    cases hsend
    cases hla
    cases V1State.recv_inv hrecv with
    | ignore _ hidle => cases hidle rfl
    | acked =>
      cases hlb
      exact ⟨43, .inl ⟨.ek (by decide) (Decoder.fresh_zero _ _), Nat.lt_succ_self _⟩⟩
    | ackedLastEk =>
      cases hlb
      exact ⟨7, .inr ⟨.ct2First, Nat.add_lt_add_left (by decide) _⟩⟩
  | ek hk hf =>
    cases hsend
    cases hla with
    | ct1Received he =>
      cases V1State.recv_inv hrecv with
      | ignore _ hidle => cases hidle rfl
      | moreEkAcked hp hdec =>
        obtain hp | hp := hp <;> cases hp
        obtain ⟨hk', hf'⟩ := fresh_next hf ha he (n := 36) hb (by decide) hk hdec
        cases hlb
        exact ⟨_, .inl ⟨.ek hk' hf', Nat.add_lt_add_left (by omega) _⟩⟩
      | ackThenEk =>
        cases hlb
        exact ⟨7, .inr ⟨.ct2First, Nat.add_lt_add_left (by omega) _⟩⟩
  | ackEk =>
    cases hsend
    cases hla
    cases V1State.recv_inv hrecv with
    | ignore _ hidle => cases hidle rfl
    | ekThenAck =>
      cases hlb
      exact ⟨7, .inr ⟨.ct2First, Nat.lt_succ_self _⟩⟩
  | ct2First =>
    cases hsend
    cases hla
    cases V1State.recv_inv hrecv with
    | ignore _ hidle => cases hidle rfl
    | firstCt2 =>
      cases hlb
      exact ⟨6, .inl ⟨.ct2 (by decide) (Decoder.fresh_zero _ _), Nat.lt_succ_self _⟩⟩
  | ct2 hk hf =>
    cases hsend
    cases hla with
    | ct2Sampled he =>
      cases V1State.recv_inv hrecv with
      | ignore _ hidle => cases hidle rfl
      | moreCt2 hdec =>
        obtain ⟨hk', hf'⟩ := fresh_next hf ha he (n := 5) hb (by decide) hk hdec
        cases hlb
        exact ⟨_, .inl ⟨.ct2 hk' hf', Nat.add_lt_add_left (by omega) _⟩⟩
      | lastCt2 =>
        cases hlb
        exact ⟨1, .inr ⟨.turn rfl, Nat.add_lt_add_left (by omega) _⟩⟩
  | @turn e e' _ _ _ _ he =>
    cases hsend
    cases hla
    have hsucc : e'.toNat = e.toNat + 1 := by rw [he]; exact toNat_epoch_succ hsmall
    cases V1State.recv_inv hrecv with
    | ignore hle =>
      have hle' : e'.toNat ≤ e.toNat := UInt64.le_iff_toNat_le.mp hle
      omega
    | nextEpoch =>
      cases hlb
      refine ⟨80, .inr ⟨.keys, ?_⟩⟩
      change 81 * e.toNat + 80 < 81 * e'.toNat + 1
      omega

end Flow

end

end LibSignal.Spqr
