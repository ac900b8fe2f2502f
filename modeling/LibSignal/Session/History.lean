import LibSignal.Session.Chains
import LibSignal.Session.Stored

/-!
# The history of a session

Every stored session has a `History`: the chains it opened and the counters it accepted, from one of the two
handshakes on.
-/

namespace LibSignal.Session
open Address (ProtocolAddress)
open Chunked (Bytes)
open Crypto Curve Lib Lib.Op Proto Protocol
open Ratchet
open Spqr (StateCodec)

abbrev ChainEvent := LineEvent Bytes ChainKey

variable {s : SessionState}

/-- No counter of the history is the last one, so no chain wrapped around. -/
def Small (log : List ChainEvent) : Prop := ∀ k i, .used k i ∈ log → i < 2 ^ 32 - 1

lemma Small.opened {log : List ChainEvent} (h : Small log) (k : Bytes) (ck : ChainKey) :
    Small (log ++ [.opened k ck]) := by
  intro k i hi
  rcases List.mem_append.mp hi with hi | hi
  · exact h k i hi
  · cases List.mem_singleton.mp hi

lemma at_concat {s' : SessionState} {k : PublicKey} {c : Chain} (hkey : c.senderRatchetKey = k.serialize)
    (hnone : s.receiverChainKey k = .ok none)
    (hchains : s'.receiverChains = keepLast maxReceiverChains (s.receiverChains ++ [c])) :
    ∃ a, s'.At k a c [] ∧ a ++ [c] = keepLast maxReceiverChains (s.receiverChains ++ [c]) := by
  have hother := SessionState.receiverChainKey_none hnone
  have hsplit := keepLast_concat (show 0 < maxReceiverChains by decide) s.receiverChains c
  exact ⟨_, ⟨hchains.trans hsplit, fun x hx => hother x (List.mem_of_mem_drop hx), hkey⟩, hsplit.symm⟩

section
variable [Hash]

/-- The chains follow the lines of a table with the same history. -/
def Represented (log : List ChainEvent) (s : SessionState) : Prop :=
  ∃ t, LineRun maxReceiverChains maxMessageKeys log t ∧ List.Forall₂ Follows t s.receiverChains

variable {ck : ChainKey} {k : PublicKey} {log : List ChainEvent} {s s' : SessionState}

lemma used_inv {t : List (Line Bytes ChainKey)} {counter : UInt32} {gen : MessageKeyGenerator}
    (hrun : LineRun maxReceiverChains maxMessageKeys log t) (hfollows : List.Forall₂ Follows t s.receiverChains)
    (hsmall : Small log) (hck : s.receiverChainKey k = .ok (some ck))
    (hgen : getOrCreateMessageKeys s k ck counter = .ok (gen, s')) :
    ∃ ta l tb a c b w, t = ta ++ l :: tb ∧ s.At k a c b ∧ List.Forall₂ Follows ta a ∧ Follows l c ∧
      List.Forall₂ Follows tb b ∧ l.key = k.serialize ∧ l.window.use maxMessageKeys counter.toNat = some w ∧
      gen = (keyAt l.origin counter.toNat).messageKeys ∧ s' = s.withChains (a ++ c.atWindow l.origin w :: b) := by
  obtain ⟨c, pb, hfind, hpb, hck⟩ := SessionState.receiverChainKey_some hck
  obtain ⟨a, b, hat⟩ := SessionState.at_of_find? hfind
  obtain ⟨ta, l, tb, rfl, ha, hl, hb⟩ := follows_split hfollows hat
  have hmem : l ∈ ta ++ l :: tb := List.mem_append_right _ List.mem_cons_self
  have hnext : l.window.next < 2 ^ 32 := by
    have hle := hrun.next_le hsmall l hmem
    omega
  have hkey : ck = keyAt l.origin l.window.next := by
    rw [hl.chainKey] at hpb
    cases hpb
    rw [chainKeyFromProto_toProto] at hck
    cases hck
    rfl
  subst hkey
  obtain ⟨w, huse, hgen, hs'⟩ := getOrCreateMessageKeys_inv hat hl (hrun.sound l hmem) hnext hgen
  exact ⟨ta, l, tb, a, c, b, w, rfl, hat, ha, hl, hb, hl.key.symm.trans hat.key, huse, hgen, hs'⟩

lemma represented_used {counter : UInt32} {gen : MessageKeyGenerator} (h : Represented log s)
    (hsmall : Small log) (hck : s.receiverChainKey k = .ok (some ck))
    (hgen : getOrCreateMessageKeys s k ck counter = .ok (gen, s')) :
    Represented (log ++ [.used k.serialize counter.toNat]) s' := by
  obtain ⟨t, hrun, hfollows⟩ := h
  obtain ⟨ta, l, tb, a, c, b, w, rfl, _, ha, hl, hb, hkey, huse, _, rfl⟩ :=
    used_inv hrun hfollows hsmall hck hgen
  refine ⟨ta ++ { l with window := w } :: tb, ?_, ?_⟩
  · rw [← hkey]
    exact hrun.snoc (.used huse)
  · exact List.rel_append ha (.cons (hl.atWindow w) hb)

lemma dhRatchetStep_chains [X25519] {rng : Reader} (hlen : s.receiverChains.length ≤ maxReceiverChains)
    (hstep : dhRatchetStep s k rng = .ok (ck, s')) : ck.index = 0 ∧ s'.receiverChains =
      keepLast maxReceiverChains (s.receiverChains ++ [⟨k.serialize, [], some (chainKeyToProto ck), []⟩]) := by
  obtain ⟨rk, our, root, new, _, _, _, _, hcreate, _, _, counter, rfl⟩ := dhRatchetStep_inv hstep
  refine ⟨?_, SessionState.addReceiverChain_chains (s := s) hlen k ck⟩
  obtain ⟨shared, _, _, rfl⟩ := RootKey.createChain_inv hcreate
  rfl

lemma represented_opened [X25519] {rng : Reader} (h : Represented log s)
    (hnone : s.receiverChainKey k = .ok none) (hstep : dhRatchetStep s k rng = .ok (ck, s')) :
    Represented (log ++ [.opened k.serialize ck]) s' := by
  obtain ⟨t, hrun, hfollows⟩ := h
  have hlen : t.length = s.receiverChains.length := hfollows.length_eq
  obtain ⟨hindex, hchains⟩ := dhRatchetStep_chains (hlen ▸ hrun.length_le) hstep
  refine ⟨_, hrun.snoc (.opened ck ?_), ?_⟩
  · -- a line of the same key would belong to a chain of the key
    intro l hl hkey
    have hmem : l.key ∈ s.receiverChains.map (·.senderRatchetKey) :=
      follows_keys hfollows ▸ List.mem_map_of_mem hl
    obtain ⟨c, hc, heq⟩ := List.mem_map.mp hmem
    exact SessionState.receiverChainKey_none hnone c hc (heq.trans hkey)
  · rw [hchains, keepLast, keepLast, List.length_append, List.length_append, hlen]
    exact List.forall₂_drop _ (List.rel_append hfollows (.cons (follows_new hindex) .nil))

lemma Represented.length_le (h : Represented log s) : s.receiverChains.length ≤ maxReceiverChains := by
  obtain ⟨t, hrun, hfollows⟩ := h
  exact hfollows.length_eq ▸ hrun.length_le

end

section
variable [Hash] [X25519] [IncrementalKem] [StateCodec] [Aes] [Kem.Kyber1024] [EdwardsPoints]

end

end LibSignal.Session
