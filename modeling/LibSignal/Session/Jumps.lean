import LibSignal.Session.Counters

/-!
# The limits on a forward jump

A message may be ahead of its receiver chain by a bounded number of counters.
-/

namespace LibSignal.Session
open Chunked (Bytes)
open Crypto Curve Lib Proto Protocol
open Ratchet
open Spqr (StateCodec)

section
variable [Hash] [StateCodec]

/-- The bound on a forward jump that the post-quantum ratchet of a state was created with. -/
def CreatedWith (s : SessionState) (maxJump : UInt32) : Prop :=
  ∃ st vn params, Spqr.decodeState s.pqRatchetState = .ok st ∧ st.versionNegotiation = some vn ∧
    vn.chainParams = some params ∧ params.maxJump = maxJump

lemma createdWith_of_initial {s : SessionState} {dir : Spqr.Direction} {authKey : Bytes} {pk pk' : PublicKey}
    (h : s.pqRatchetState = pqrInitialState dir authKey pk pk') (hlocal : s.localIdentityPublic = pk.serialize)
    (hremote : s.remoteIdentityPublic = pk'.serialize) :
    CreatedWith s (if s.localIdentityPublic = s.remoteIdentityPublic then 0xFFFFFFFF else maxForwardJumps) := by
  have hdecode : Spqr.decodeState (pqrInitialState dir authKey pk pk') =
      .ok (Spqr.initialPq (pqrParams dir authKey pk pk')) := (Spqr.Running.initial rfl rfl).1
  refine ⟨_, _, _, h ▸ hdecode, rfl, rfl, ?_⟩
  have hequal : pk.equal pk' = true ↔ s.localIdentityPublic = s.remoteIdentityPublic := by
    rw [PublicKey.equal_iff, hlocal, hremote]
    exact ⟨congrArg _, PublicKey.serialize_injective⟩
  exact if_congr hequal rfl rfl

lemma Begun.createdWith [X25519] [Kem.Kyber1024] [EdwardsPoints] {s : SessionState} (h : Begun s) :
    CreatedWith s (if s.localIdentityPublic = s.remoteIdentityPublic then 0xFFFFFFFF else maxForwardJumps) := by
  cases h with
  | initiator h =>
    obtain ⟨s0, pk, hs0, _, rfl⟩ := bundleSession_inv h
    obtain ⟨_, _, _, _, _, _, initial, _, _, chain, _, _, _, _, _, rfl⟩ := initializeAliceSession_inv hs0
    exact createdWith_of_initial rfl rfl rfl
  | recipient h id id' =>
    obtain ⟨_, _, _, _, _, initial, _, _, _, _, _, rfl⟩ := initializeBobSession_inv h
    exact createdWith_of_initial rfl rfl rfl

end

section
variable [Hash] [X25519]

lemma getOrCreateChainKey_receiverChainKey {s s1 : SessionState} {k : PublicKey} {rng : Reader} {ck : ChainKey}
    (h : getOrCreateChainKey s k rng = .ok (ck, s1)) : s1.receiverChainKey k = .ok (some ck) := by
  rcases getOrCreateChainKey_inv h with ⟨hfound, rfl⟩ | ⟨hnone, hstep⟩
  · exact hfound
  · obtain ⟨_, _, _, _, _, _, _, _, _, _, _, counter, rfl⟩ := dhRatchetStep_inv hstep
    have hother := SessionState.receiverChainKey_none hnone
    have hat : ∃ a, (∀ x ∈ a, x ∈ s.receiverChains) ∧
        (SessionState.addReceiverChain s k ck).receiverChains =
          a ++ [⟨k.serialize, [], some (chainKeyToProto ck), []⟩] := by
      rw [SessionState.addReceiverChain]
      dsimp only
      split
      · rename_i hlen
        rw [List.length_append, List.length_singleton, maxReceiverChains] at hlen
        refine ⟨s.receiverChains.drop 1, fun x hx => List.mem_of_mem_drop hx, ?_⟩
        exact List.drop_append_of_le_length (by omega)
      · exact ⟨s.receiverChains, fun x hx => hx, rfl⟩
    obtain ⟨a, ha, hchains⟩ := hat
    have hplace : SessionState.At _ k a ⟨k.serialize, [], some (chainKeyToProto ck), []⟩ [] :=
      ⟨hchains, fun x hx => hother x (ha x hx), rfl⟩
    exact hplace.receiverChainKey rfl

variable [IncrementalKem] [StateCodec] [Aes] [Wire SignalMessagePB] [Wire PreKeySignalMessagePB]

def Reaches : SessionState → SessionState → Prop := Relation.ReflTransGen fun s s' => ∃ e, SessionStep s e s'

lemma Reaches.parties {s0 s : SessionState} (h : Reaches s0 s) : s.parties = s0.parties := by
  induction h with
  | refl => rfl
  | tail _ hstep ih =>
    obtain ⟨e, hstep⟩ := hstep
    exact hstep.parties.trans ih

/-- In every state of a session and for every counter ahead of a receiver chain, the Double Ratchet accepts the jump
exactly when the bound of the post-quantum ratchet does, if and only if the session is between two identities or
the jump is within the bound of the Double Ratchet. -/
theorem forward_jump_limit [Kem.Kyber1024] [EdwardsPoints] {s0 : SessionState} (hs0 : Begun s0) :
    ∃ limit, CreatedWith s0 limit ∧
      limit = (if s0.localIdentityPublic = s0.remoteIdentityPublic then 0xFFFFFFFF else 25000) ∧
      ∀ s, Reaches s0 s → ∀ (k : PublicKey) (rng : Reader) (ck : ChainKey) (s1 : SessionState) (counter : UInt32),
        getOrCreateChainKey s k rng = .ok (ck, s1) → ck.index ≤ counter →
        (((∃ r, getOrCreateMessageKeys s1 k ck counter = .ok r) ↔ counter - ck.index ≤ limit) ↔
          (s.localIdentityPublic ≠ s.remoteIdentityPublic ∨ counter - ck.index ≤ 25000)) := by
  refine ⟨_, hs0.createdWith, rfl, fun s hreach k rng ck s1 counter hck hle => ?_⟩
  rw [getOrCreateMessageKeys_accepts (getOrCreateChainKey_receiverChainKey hck) hle]
  have hparties := hreach.parties
  simp only [SessionState.parties, Prod.mk.injEq] at hparties
  rw [hparties.2.1, hparties.2.2.1]
  change (counter - ck.index ≤ 25000 ↔ _) ↔ _
  by_cases hself : s0.localIdentityPublic = s0.remoteIdentityPublic
  · have hall : counter - ck.index ≤ 0xFFFFFFFF := by
      have hlt := (counter - ck.index).toNat_lt
      rw [UInt32.le_iff_toNat_le]
      change _ ≤ 4294967295
      omega
    simp only [hself, if_true, ne_eq, not_true_eq_false, false_or, hall, iff_true]
  · simp only [hself, if_false, ne_eq, not_false_eq_true, true_or, iff_true]
    exact Iff.rfl

end

section
attribute [local instance] zeroHash oneX25519 zeroKem Spqr.unaryCodec plainAes Kem.zeroKyber freePoints zeroXEdDSA
attribute [local instance] unaryWire

/-- The theorem on the session of a bundle. -/
theorem forward_jump_limit_sample : ∃ s limit, Begun s ∧ CreatedWith s limit ∧ ∀ (k : PublicKey) (rng : Reader)
    (ck : ChainKey) (s1 : SessionState) (counter : UInt32), getOrCreateChainKey s k rng = .ok (ck, s1) →
      ck.index ≤ counter →
      (((∃ r, getOrCreateMessageKeys s1 k ck counter = .ok r) ↔ counter - ck.index ≤ limit) ↔
        (s.localIdentityPublic ≠ s.remoteIdentityPublic ∨ counter - ck.index ≤ 25000)) := by
  obtain ⟨s, _, _, _, hs, _⟩ := sampleSession_begun
  obtain ⟨limit, hlimit, _, hjump⟩ := forward_jump_limit (.initiator hs)
  exact ⟨s, limit, .initiator hs, hlimit, hjump s .refl⟩

/-- A session with oneself: its post-quantum ratchet sets no bound, and a jump of 25001 is refused. -/
theorem self_session_jump : ∃ s, Begun s ∧ CreatedWith s 0xFFFFFFFF ∧ ∃ ck,
    getOrCreateChainKey s Stores.sampleKeys.publicKey zeroReader = .ok (ck, s) ∧ ck.index = 0 ∧
    getOrCreateMessageKeys s Stores.sampleKeys.publicKey ck 25001 = .error (.invalidMessage (.tooFar 25001)) := by
  obtain ⟨s, _, _, _, hs, _, hsample⟩ := sampleSession_begun
  have hself : s.localIdentityPublic = s.remoteIdentityPublic := by
    rw [← hsample]
    rfl
  have hcreated := Begun.createdWith (.initiator hs)
  rw [if_pos hself] at hcreated
  refine ⟨s, .initiator hs, hcreated, sampleChainKey 0, ?_, rfl, ?_⟩
  · rw [← hsample]
    rfl
  · rfl

end

end LibSignal.Session
