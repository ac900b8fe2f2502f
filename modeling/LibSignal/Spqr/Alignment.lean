import LibSignal.Spqr.V1Moves

/-!
# Alignment of the two machines

How far two parties can be apart, whatever the network does.
-/

namespace LibSignal.Spqr
open Chunked Crypto

namespace Tag

def isEk : Tag → Bool
  | keysUnsampled | keysSampled | headerSent | ct1Received | ekSentCt1Received => true
  | _ => false

def stage : Tag → Nat
  | keysUnsampled | noHeaderReceived => 0
  | keysSampled | headerReceived => 1
  | headerSent | ct1Sampled => 2
  | ct1Received | ekReceivedCt1Sampled | ct1Acknowledged => 3
  | ekSentCt1Received | ct2Sampled => 4

def needs : Tag → Nat
  | keysUnsampled | keysSampled | noHeaderReceived => 0
  | headerReceived | ct1Sampled => 1
  | headerSent | ct1Received | ekReceivedCt1Sampled => 2
  | ct1Acknowledged | ct2Sampled => 3
  | ekSentCt1Received => 4

end Tag

def Payload.emits : Payload → Nat
  | .none => 0
  | .hdr _ => 1
  | .ek _ | .ct1 _ => 2
  | .ekCt1Ack _ => 3
  | .ct1Ack _ | .ct2 _ => 4

def ekTurn : Direction → Nat → Bool
  | .a2b, n => n % 2 == 1
  | .b2a, n => n % 2 == 0

lemma ekTurn_succ (d : Direction) (n : Nat) : ekTurn d (n + 1) = !ekTurn d n := by
  cases d <;> simp only [ekTurn] <;> rcases Nat.mod_two_eq_zero_or_one n with h | h <;>
    simp [Nat.add_mod, h]

lemma ekTurn_switch (d : Direction) (n : Nat) : ekTurn (switchDirection d) n = !ekTurn d n := by
  cases d <;> simp only [ekTurn, switchDirection] <;>
    rcases Nat.mod_two_eq_zero_or_one n with h | h <;> simp [h]

@[simp] lemma switchDirection_switchDirection (d : Direction) : switchDirection (switchDirection d) = d := by
  cases d <;> rfl

namespace V1State

/-- The party has reached stage `k` of epoch `e`. -/
def Past (s : V1State) (e : UInt64) (k : Nat) : Prop :=
  e.toNat < s.epoch.toNat ∨ (s.epoch = e ∧ k ≤ s.tag.stage)

variable {e : UInt64} {k : Nat} {s : V1State}

lemma Past.epoch_le (h : s.Past e k) : e.toNat ≤ s.epoch.toNat := by
  rcases h with h | ⟨rfl, _⟩
  · exact h.le
  · exact le_refl _

lemma Past.of_like {s' : V1State} (h : s.Past e k) (hl : Like s s') : s'.Past e k := by
  rw [Past, hl.tag, hl.epoch]
  exact h

lemma Past.weaken {j : Nat} (h : s.Past e k) (hjk : j ≤ k) : s.Past e j := by
  rcases h with h | ⟨he, hk⟩
  · exact .inl h
  · exact .inr ⟨he, hjk.trans hk⟩

end V1State

/-! ## What a move does to stage, role and needs -/

variable {t : Tag}

lemma RecvTag.stage_le {t' : Tag} (h : RecvTag t t') : t.stage ≤ t'.stage := by
  cases h <;> simp [Tag.stage]

lemma RecvTag.isEk {t' : Tag} (h : RecvTag t t') : t'.isEk = t.isEk := by
  cases h <;> rfl

lemma RecvTag.of_ct2Sampled (h : RecvTag .ct2Sampled t) : t = .ct2Sampled := by
  cases h
  rfl

section
variable [Hash] [IncrementalKem]

namespace V1State
variable {s s' : V1State} {e : UInt64} {k : Nat} {m : V1Message} {es : Option EpochSecret}

omit [Hash] [IncrementalKem] in
lemma SendMove.tags (h : SendMove s s' es) :
    s.tag.stage ≤ s'.tag.stage ∧ s'.tag.isEk = s.tag.isEk ∧ s'.tag.needs = s.tag.needs := by
  cases h with
  | again htag => rw [htag]; exact ⟨le_refl _, rfl, rfl⟩
  | sampleKeys htag htag' => rw [htag, htag']; decide
  | sampleCt1 htag htag' => rw [htag, htag']; decide

omit [Hash] [IncrementalKem] in
lemma Past.send (h : s.Past e k) (hepoch : s'.epoch = s.epoch) (hmove : SendMove s s' es) : s'.Past e k := by
  rcases h with h | ⟨he, hk⟩
  · exact .inl (by rw [hepoch]; exact h)
  · exact .inr ⟨hepoch.trans he, hk.trans hmove.tags.1⟩

omit [Hash] [IncrementalKem] in
lemma Past.recv {me : UInt64} (h : s.Past e k) (hsmall : s.epoch.toNat + 1 < 2 ^ 64)
    (hmove : RecvMove s s' me es) : s'.Past e k := by
  have hsucc := toNat_epoch_succ hsmall
  have hle := h.epoch_le
  cases hmove with
  | inEpoch htag hepoch =>
    rcases h with h | ⟨he, hk⟩
    · exact .inl (by rw [hepoch]; exact h)
    · exact .inr ⟨hepoch.trans he, hk.trans htag.stage_le⟩
  | nextEpoch _ _ hmsg _ hepoch =>
    left
    rw [hepoch, hmsg, hsucc]
    omega
  | finish _ _ _ hepoch =>
    left
    rw [hepoch, hsucc]
    omega

lemma emits_le_stage {rng : Reader} {p : Payload} (h : s.sendStep rng = .ok (s', p, es)) :
    p.emits ≤ s'.tag.stage := by
  cases s with
  | keysUnsampled e a =>
    obtain ⟨_, _, _, _, _, _, hr⟩ := sendHdrChunk_inv h
    cases hr
    exact le_refl _
  | headerReceived e a hdr dec =>
    obtain ⟨_, _, _, _, _, _, hr⟩ := sendCt1_inv h
    cases hr
    exact le_refl _
  | ekReceivedCt1Sampled =>
    cases h
    exact Nat.le_succ _
  | _ =>
    cases h
    first | exact le_refl _ | exact Nat.zero_le _

lemma recv_needs (h : s.recv m = .ok (s', es)) : s'.tag.needs = 0 ∨ (s'.epoch = s.epoch ∧
      (s'.tag.needs ≤ s.tag.needs ∨ (m.epoch = s.epoch ∧ s'.tag.needs ≤ m.payload.emits))) := by
  cases V1State.recv_inv h with
  | ignore => exact .inr ⟨rfl, .inl (le_refl _)⟩
  | firstCt1 => exact .inr ⟨rfl, .inr ⟨rfl, le_refl _⟩⟩
  | moreCt1 => exact .inr ⟨rfl, .inl (le_refl _)⟩
  | lastCt1 => exact .inr ⟨rfl, .inl (le_refl _)⟩
  | firstCt2 => exact .inr ⟨rfl, .inr ⟨rfl, le_refl _⟩⟩
  | moreCt2 => exact .inr ⟨rfl, .inl (le_refl _)⟩
  | lastCt2 => exact .inl rfl
  | moreHdr => exact .inl rfl
  | lastHdr => exact .inr ⟨rfl, .inr ⟨rfl, le_refl _⟩⟩
  | moreEk => exact .inr ⟨rfl, .inl (le_refl _)⟩
  | acked => exact .inr ⟨rfl, .inr ⟨rfl, le_refl _⟩⟩
  | lastEk => exact .inr ⟨rfl, .inr ⟨rfl, le_refl _⟩⟩
  | ackedLastEk => exact .inr ⟨rfl, .inr ⟨rfl, le_refl _⟩⟩
  | ekThenAck hp =>
    refine .inr ⟨rfl, .inr ⟨rfl, ?_⟩⟩
    rcases hp with rfl | ⟨_, rfl⟩
    · exact Nat.le_succ _
    · exact le_refl _
  | moreEkAcked => exact .inr ⟨rfl, .inl (le_refl _)⟩
  | ackThenEk => exact .inr ⟨rfl, .inl (le_refl _)⟩
  | nextEpoch => exact .inl rfl

end V1State

/-! ## The alignment -/

structure Aligned (d : Direction) (s p : V1State) : Prop where
  role : s.tag.isEk = ekTurn d s.epoch.toNat
  rolePeer : p.tag.isEk = ekTurn (switchDirection d) p.epoch.toNat
  needs : s.tag.needs ≠ 0 → p.Past s.epoch s.tag.needs
  needsPeer : p.tag.needs ≠ 0 → s.Past p.epoch p.tag.needs
  near : s.epoch.toNat ≤ p.epoch.toNat ∨
    (s.epoch.toNat = p.epoch.toNat + 1 ∧ p.tag = .ct2Sampled)
  nearPeer : p.epoch.toNat ≤ s.epoch.toNat ∨
    (p.epoch.toNat = s.epoch.toNat + 1 ∧ s.tag = .ct2Sampled)

namespace Aligned
variable {d : Direction} {s s' p p' : V1State} {m : V1Message} {es : Option EpochSecret}

omit [Hash] [IncrementalKem] in
lemma symm (h : Aligned d s p) : Aligned (switchDirection d) p s :=
  ⟨h.rolePeer, by rw [switchDirection_switchDirection]; exact h.role, h.needsPeer, h.needs, h.nearPeer, h.near⟩

omit [Hash] [IncrementalKem] in
lemma of_like (h : Aligned d s p) (hl : V1State.Like s s') : Aligned d s' p := by
  have htag := hl.tag
  have hepoch := hl.epoch
  refine ⟨?_, h.rolePeer, ?_, fun hn => (h.needsPeer hn).of_like hl, ?_, ?_⟩
  · rw [htag, hepoch]; exact h.role
  · rw [htag, hepoch]; exact h.needs
  · rw [hepoch]; exact h.near
  · rw [htag, hepoch]; exact h.nearPeer

omit [Hash] [IncrementalKem] in
lemma epoch_of_past (h : Aligned d s p) (hsmall : s.epoch.toNat + 1 < 2 ^ 64) {e : UInt64} {k : Nat}
    (hpast : p.Past e k) : e ≤ s.epoch ∨ (s.tag = .ct2Sampled ∧ e = s.epoch + 1) := by
  have hle := hpast.epoch_le
  have hsucc := toNat_epoch_succ hsmall
  by_cases hes : e.toNat ≤ s.epoch.toNat
  · exact .inl (UInt64.le_iff_toNat_le.mpr hes)
  · rcases h.nearPeer with hp | ⟨hp, htag⟩
    · omega
    · exact .inr ⟨htag, UInt64.toNat_inj.mp (by rw [hsucc]; omega)⟩

omit [Hash] [IncrementalKem] in
lemma send (h : Aligned d s p) (hepoch : s'.epoch = s.epoch) (hmove : V1State.SendMove s s' es) :
    Aligned d s' p := by
  obtain ⟨_, hek, hneeds⟩ := hmove.tags
  refine ⟨?_, h.rolePeer, ?_, fun hn => (h.needsPeer hn).send hepoch hmove, ?_, ?_⟩
  · rw [hek, hepoch]; exact h.role
  · rw [hneeds, hepoch]; exact h.needs
  · rw [hepoch]; exact h.near
  · rw [hepoch]
    rcases h.nearPeer with hp | ⟨hp, htag⟩
    · exact .inl hp
    · refine .inr ⟨hp, ?_⟩
      cases hmove with
      | again htag' => exact htag'.trans htag
      | sampleKeys htag' => rw [htag] at htag'; cases htag'
      | sampleCt1 htag' => rw [htag] at htag'; cases htag'

lemma recv (h : Aligned d s p) (hsmall : s.epoch.toNat + 1 < 2 ^ 64)
    (hpast : p.Past m.epoch m.payload.emits) (hrecv : s.recv m = .ok (s', es)) : Aligned d s' p := by
  have hmove := V1State.recv_move hrecv
  have hsucc := toNat_epoch_succ hsmall
  have hneeds : s'.tag.needs ≠ 0 → p.Past s'.epoch s'.tag.needs := by
    intro hne
    rcases V1State.recv_needs hrecv with h0 | ⟨hepoch, hle | ⟨hme, hle⟩⟩
    · exact absurd h0 hne
    · rw [hepoch]
      exact (h.needs (by omega)).weaken hle
    · rw [hepoch, ← hme]
      exact hpast.weaken hle
  have hback : p.tag.needs ≠ 0 → s'.Past p.epoch p.tag.needs :=
    fun hn => (h.needsPeer hn).recv hsmall hmove
  cases hmove with
  | inEpoch htag hepoch =>
    refine ⟨?_, h.rolePeer, hneeds, hback, ?_, ?_⟩
    · rw [htag.isEk, hepoch]; exact h.role
    · rw [hepoch]; exact h.near
    · rw [hepoch]
      rcases h.nearPeer with hp | ⟨hp, hct2⟩
      · exact .inl hp
      · rw [hct2] at htag
        exact .inr ⟨hp, htag.of_ct2Sampled⟩
  | nextEpoch htag htag' hmsg _ hepoch =>
    have hle := hpast.epoch_le
    have hrole := h.role
    rw [htag] at hrole
    refine ⟨?_, h.rolePeer, hneeds, hback, .inl (by rw [hepoch]; exact hle), .inl ?_⟩
    · rw [htag', hepoch, hmsg, hsucc, ekTurn_succ, ← hrole]
      rfl
    · rw [hepoch, hmsg, hsucc]
      rcases h.nearPeer with hp | ⟨hp, _⟩ <;> omega
  | finish htag htag' _ hepoch =>
    have hrole := h.role
    have hpeer := h.needs (by rw [htag]; decide)
    rw [htag] at hrole hpeer
    refine ⟨?_, h.rolePeer, hneeds, hback, ?_, .inl ?_⟩
    · rw [htag', hepoch, hsucc, ekTurn_succ, ← hrole]
      rfl
    · rw [hepoch, hsucc]
      rcases hpeer with hlt | ⟨heq, hstage⟩
      · exact .inl hlt
      · -- at the same epoch the peer has the other role, so its last stage is `ct2Sampled`
        refine .inr ⟨by rw [heq], ?_⟩
        have hrolep := h.rolePeer
        rw [heq, ekTurn_switch, ← hrole] at hrolep
        revert hstage hrolep
        cases p.tag <;> decide
    · rw [hepoch, hsucc]
      rcases h.nearPeer with hp | ⟨_, hct2⟩
      · omega
      · rw [htag] at hct2
        cases hct2

end Aligned

end

end LibSignal.Spqr
