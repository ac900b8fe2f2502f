import LibSignal.Session.Chains
import LibSignal.Session.Conversation
import LibSignal.Stores.InMem

/-!
# A message of a session is decrypted once

The receive log of a conversation notes when a message opened a chain and which counter of which chain it
used.
-/

namespace LibSignal.Session
open Address (ProtocolAddress)
open Chunked (Bytes)
open Crypto Curve Lib Lib.Op Proto Protocol
open Ratchet
open Spqr (StateCodec)

/-- An event on the chains of one side: a chain is opened, or a counter of it is used. -/
abbrev ChainUse := LineEvent Bytes Unit

def lastCounter : Nat := 2 ^ 32 - 1

def SessionState.holdsChain (s : SessionState) (k : Bytes) : Bool :=
  s.receiverChains.any (·.senderRatchetKey == k)

def receiveEvents (s : SessionState) (m : SignalMessage) : List ChainUse :=
  if s.holdsChain m.senderRatchet.serialize then [.used m.senderRatchet.serialize m.counter.toNat]
  else [.opened m.senderRatchet.serialize ()] ++ [.used m.senderRatchet.serialize m.counter.toNat]

lemma holdsChain_iff {s : SessionState} {k : Bytes} :
    s.holdsChain k = true ↔ ∃ c ∈ s.receiverChains, c.senderRatchetKey = k := by
  rw [SessionState.holdsChain, List.any_eq_true]
  exact exists_congr fun c => and_congr_right fun _ => beq_iff_eq

/-! ## Changing one chain -/

/-- Two states whose receiver chains differ in the first chain of a ratchet key only. -/
def ChangedAt (k : PublicKey) (s s' : SessionState) : Prop :=
  ∃ a c b c', s.At k a c b ∧ s'.receiverChains = a ++ c' :: b ∧ c'.senderRatchetKey = c.senderRatchetKey

lemma ChangedAt.trans {k : PublicKey} {s s1 s2 : SessionState} (h : ChangedAt k s s1) (h' : ChangedAt k s1 s2) :
    ChangedAt k s s2 := by
  obtain ⟨a, c, b, c1, hat, hs1, hc1⟩ := h
  obtain ⟨a', c', b', c2, hat', hs2, hc2⟩ := h'
  have hat1 : s1.At k a c1 b := ⟨hs1, hat.before, hc1.trans hat.key⟩
  obtain ⟨rfl, rfl, rfl⟩ := hat1.unique hat'
  exact ⟨_, c, _, c2, hat, hs2, hc2.trans hc1⟩

lemma ChangedAt.keys {k' : PublicKey} {s s' : SessionState} (h : ChangedAt k' s s') :
    s'.receiverChains.map (·.senderRatchetKey) = s.receiverChains.map (·.senderRatchetKey) := by
  obtain ⟨a, c, b, c', hat, hs', hkey⟩ := h
  rw [hs', hat.chains, List.map_append, List.map_append, List.map_cons, List.map_cons, hkey]

lemma changedAt_of_index {k : PublicKey} {s : SessionState} {i : Nat} {f : Chain → Chain}
    (hi : s.receiverChainIndex k = some i) (hf : ∀ c, (f c).senderRatchetKey = c.senderRatchetKey) :
    ChangedAt k s (s.modifyChain i f) := by
  obtain ⟨c, hfind⟩ : ∃ c, s.receiverChains.find? (·.senderRatchetKey == k.serialize) = some c := by
    rw [← Option.isSome_iff_exists, List.find?_isSome]
    obtain ⟨hlt, hkey, _⟩ := List.findIdx?_eq_some_iff_getElem.mp hi
    exact ⟨_, List.getElem_mem hlt, hkey⟩
  obtain ⟨a, b, hat⟩ := SessionState.at_of_find? hfind
  cases hi.symm.trans hat.receiverChainIndex
  refine ⟨a, c, b, f c, hat, ?_, hf c⟩
  rw [hat.modifyChain]
  rfl

section
variable [Hash]

lemma cacheMessageKeys_changed {k : PublicKey} {s s' : SessionState} {gen : MessageKeyGenerator}
    (h : s.cacheMessageKeys k gen = .ok s') : ChangedAt k s s' := by
  rw [SessionState.cacheMessageKeys] at h
  split at h
  · cases h
  · obtain ⟨_, _, h⟩ := bind_eq_ok h
    cases h
    exact changedAt_of_index ‹_› fun _ => rfl

lemma skipMessageKeys_changed {k : PublicKey} {counter : UInt32} (fuel : Nat) :
    ∀ {ck ck' : ChainKey} {s s' : SessionState}, skipMessageKeys k counter fuel ck s = .ok (ck', s') →
      s' = s ∨ ChangedAt k s s' := by
  induction fuel with
  | zero =>
    intro ck ck' s s' h
    cases h
    exact .inl rfl
  | succ fuel ih =>
    intro ck ck' s s' h
    rw [skipMessageKeys] at h
    split at h
    · obtain ⟨s1, hs1, h⟩ := bind_eq_ok h
      have hchanged := cacheMessageKeys_changed hs1
      rcases ih h with rfl | hrest
      · exact .inr hchanged
      · exact .inr (hchanged.trans hrest)
    · cases h
      exact .inl rfl

lemma getOrCreateMessageKeys_changed {s s' : SessionState} {k : PublicKey} {ck : ChainKey} {counter : UInt32}
    {gen : MessageKeyGenerator} (h : getOrCreateMessageKeys s k ck counter = .ok (gen, s')) :
    ChangedAt k s s' := by
  rw [getOrCreateMessageKeys] at h
  split at h
  · obtain ⟨⟨found, s1⟩, htake, h⟩ := bind_eq_ok h
    cases found with
    | none => cases h
    | some gen' =>
      cases h
      rw [SessionState.takeMessageKeys] at htake
      split at htake
      · cases htake
      · split at htake
        · cases htake
        · obtain ⟨_, _, htake⟩ := bind_eq_ok htake
          cases htake
          exact changedAt_of_index ‹_› fun _ => rfl
  · split at h
    · cases h
    · obtain ⟨⟨ck', s1⟩, hskip, h⟩ := bind_eq_ok h
      obtain ⟨s2, hset, h⟩ := bind_eq_ok h
      cases h
      rw [SessionState.setReceiverChainKey] at hset
      split at hset
      · cases hset
      · cases hset
        have hchanged := changedAt_of_index ‹_› fun c => (rfl :
          ({ c with chainKey := some (chainKeyToProto ck'.next) } : Chain).senderRatchetKey = c.senderRatchetKey)
        rcases skipMessageKeys_changed _ hskip with rfl | hskip
        · exact hchanged
        · exact hskip.trans hchanged

end

/-! ## The chain of one ratchet key -/

section
variable [Hash]

/-- There is at most one chain of a ratchet key. As long as it did not use its last counter it follows a line,
and the counters used since it was opened are used in the window of the line. -/
structure Tracked (log : List ChainUse) (k : Bytes) (s : SessionState) : Prop where
  single : (s.receiverChains.map (·.senderRatchetKey)).count k ≤ 1
  window : ¬ UsedSince k lastCounter log → ∀ c ∈ s.receiverChains, c.senderRatchetKey = k →
    ∃ origin w, Follows ⟨k, origin, w⟩ c ∧ w.Sound maxMessageKeys 0 ∧ w.next < 2 ^ 32 ∧
      ∀ i, UsedSince k i log → i ∈ w.used

variable {log : List ChainUse} {k : Bytes} {s s' : SessionState}

lemma Tracked.aside (h : Tracked log k s) (hchains : s'.receiverChains = s.receiverChains) : Tracked log k s' :=
  ⟨hchains ▸ h.single, hchains ▸ h.window⟩

lemma Tracked.other (h : Tracked log k s) {k' : PublicKey} (hne : k'.serialize ≠ k) (hchanged : ChangedAt k' s s')
    (i : Nat) : Tracked (log ++ [.used k'.serialize i]) k s' := by
  have hsince : ∀ j, UsedSince k j (log ++ [.used k'.serialize i]) → UsedSince k j log := by
    intro j hj
    rcases hj.concat with he | ⟨hj, _⟩
    · exact absurd (LineEvent.used.inj he).1 hne
    · exact hj
  refine ⟨hchanged.keys ▸ h.single, fun hlast c0 hc0 hkey => ?_⟩
  obtain ⟨a, c, b, c', hat, hs', hc'⟩ := hchanged
  have hmem : c0 ∈ s.receiverChains := by
    rw [hs'] at hc0
    rw [hat.chains]
    rcases List.mem_append.mp hc0 with hc0 | hc0
    · exact List.mem_append_left _ hc0
    · rcases List.mem_cons.mp hc0 with rfl | hc0
      · exact absurd ((hc'.trans hat.key).symm.trans hkey) hne
      · exact List.mem_append_right _ (List.mem_cons_of_mem _ hc0)
  obtain ⟨origin, w, hf, hsound, hnext, hused⟩ :=
    h.window (fun hl => hlast (hl.snoc fun _ => nofun)) c0 hmem hkey
  exact ⟨origin, w, hf, hsound, hnext, fun j hj => hused j (hsince j hj)⟩

lemma Tracked.at_unique {k : PublicKey} {a b : List Chain} {c c0 : Chain} (h : Tracked log k.serialize s)
    (hat : s.At k a c b) {c' : Chain} (hmem : c0 ∈ a ++ c' :: b) (hkey : c0.senderRatchetKey = k.serialize) :
    c0 = c' := by
  have hcount := h.single
  rw [hat.chains, List.map_append, List.map_cons, List.count_append, hat.key, List.count_cons_self] at hcount
  rcases List.mem_append.mp hmem with hmem | hmem
  · exact absurd hkey (hat.before c0 hmem)
  · rcases List.mem_cons.mp hmem with rfl | hmem
    · rfl
    · have hpos : 0 < (b.map (·.senderRatchetKey)).count k.serialize :=
        List.count_pos_iff.mpr (hkey ▸ List.mem_map_of_mem hmem)
      omega

lemma Tracked.line {k : PublicKey} {ck : ChainKey} (h : Tracked log k.serialize s)
    (hlast : ¬ UsedSince k.serialize lastCounter log) (hck : s.receiverChainKey k = .ok (some ck)) :
    ∃ a c b origin w, s.At k a c b ∧ Follows ⟨k.serialize, origin, w⟩ c ∧ w.Sound maxMessageKeys 0 ∧
      w.next < 2 ^ 32 ∧ (∀ i, UsedSince k.serialize i log → i ∈ w.used) ∧ ck = keyAt origin w.next := by
  obtain ⟨c, pb, hfind, hpb, hck⟩ := SessionState.receiverChainKey_some hck
  obtain ⟨a, b, hat⟩ := SessionState.at_of_find? hfind
  have hmem : c ∈ s.receiverChains := List.mem_of_find?_eq_some hfind
  obtain ⟨origin, w, hf, hsound, hnext, hused⟩ := h.window hlast c hmem hat.key
  refine ⟨a, c, b, origin, w, hat, hf, hsound, hnext, hused, ?_⟩
  rw [hf.chainKey] at hpb
  cases hpb
  rw [chainKeyFromProto_toProto] at hck
  cases hck
  rfl

lemma Tracked.used {k : PublicKey} {ck : ChainKey} {counter : UInt32} {gen : MessageKeyGenerator}
    (h : Tracked log k.serialize s) (hck : s.receiverChainKey k = .ok (some ck))
    (hgen : getOrCreateMessageKeys s k ck counter = .ok (gen, s')) :
    Tracked (log ++ [.used k.serialize counter.toNat]) k.serialize s' := by
  refine ⟨(getOrCreateMessageKeys_changed hgen).keys ▸ h.single, fun hlast c0 hc0 hkey => ?_⟩
  have hold : ¬ UsedSince k.serialize lastCounter log :=
    fun hl => hlast (hl.snoc fun _ => nofun)
  have hcounter : counter.toNat ≠ lastCounter := fun heq => hlast (heq ▸ usedSince_used _ _ _)
  obtain ⟨a, c, b, origin, w, hat, hf, hsound, hnext, hused, rfl⟩ := h.line hold hck
  obtain ⟨w', huse, _, rfl⟩ := getOrCreateMessageKeys_inv hat hf hsound hnext hgen
  obtain rfl := h.at_unique hat hc0 hkey
  refine ⟨origin, w', hf.atWindow w', hsound.use huse, ?_, fun i hi => ?_⟩
  · have hlt := counter.toNat_lt
    rw [Window.use_next huse]
    rw [lastCounter] at hcounter
    dsimp only at hnext ⊢
    omega
  · rw [Window.use_used huse, List.mem_cons]
    rcases hi.concat with he | ⟨hi, _⟩
    · exact .inl (LineEvent.used.inj he).2.symm
    · exact .inr (hused i hi)

lemma dhRatchetStep_appends [X25519] {k : PublicKey} {ck : ChainKey} {rng : Reader}
    (hstep : dhRatchetStep s k rng = .ok (ck, s')) : ck.index = 0 ∧
      s'.receiverChains.Sublist (s.receiverChains ++ [⟨k.serialize, [], some (chainKeyToProto ck), []⟩]) := by
  obtain ⟨rk, our, root, new, _, _, _, _, hcreate, _, _, counter, rfl⟩ := dhRatchetStep_inv hstep
  constructor
  · obtain ⟨shared, _, _, rfl⟩ := RootKey.createChain_inv hcreate
    rfl
  · change (SessionState.addReceiverChain _ k ck).receiverChains.Sublist _
    rw [SessionState.addReceiverChain]
    dsimp only
    split
    · exact List.drop_sublist _ _
    · exact List.Sublist.refl _

lemma Tracked.opened [X25519] {k' : PublicKey} {ck : ChainKey} {rng : Reader} (h : Tracked log k s)
    (hnone : s.receiverChainKey k' = .ok none) (hstep : dhRatchetStep s k' rng = .ok (ck, s')) :
    Tracked (log ++ [.opened k'.serialize ()]) k s' := by
  obtain ⟨hindex, hsub⟩ := dhRatchetStep_appends hstep
  have hother := SessionState.receiverChainKey_none hnone
  have hcount : (s'.receiverChains.map (·.senderRatchetKey)).count k ≤
      (s.receiverChains.map (·.senderRatchetKey)).count k + [k'.serialize].count k := by
    have hle := (hsub.map (·.senderRatchetKey)).count_le k
    rwa [List.map_append, List.count_append] at hle
  by_cases hk : k'.serialize = k
  · subst hk
    have hzero : (s.receiverChains.map (·.senderRatchetKey)).count k'.serialize = 0 := by
      refine List.count_eq_zero.mpr fun hmem => ?_
      obtain ⟨c, hc, hkey⟩ := List.mem_map.mp hmem
      exact hother c hc hkey
    refine ⟨?_, fun _ c hc hkey => ?_⟩
    · rw [hzero, List.count_singleton_self] at hcount
      exact hcount
    · rcases List.mem_append.mp (hsub.mem hc) with hc | hc
      · exact absurd hkey (hother c hc)
      · rw [List.mem_singleton.mp hc]
        refine ⟨ck, .start 0, follows_new hindex, Window.sound_start _ _, by decide, fun i hi => ?_⟩
        exact absurd hi (not_usedSince_opened _ _ _ _)
  · have hsince : ∀ i, UsedSince k i (log ++ [.opened k'.serialize ()]) ↔ UsedSince k i log := by
      refine fun i => ⟨fun hi => ?_, fun hi => hi.snoc fun o ho => hk (LineEvent.opened.inj ho).1⟩
      rcases hi.concat with he | ⟨hi, _⟩
      · cases he
      · exact hi
    refine ⟨?_, fun hlast c hc hkey => ?_⟩
    · rw [List.count_singleton, if_neg (by simpa using hk)] at hcount
      exact hcount.trans h.single
    · rcases List.mem_append.mp (hsub.mem hc) with hc | hc
      · obtain ⟨origin, w, hf, hsound, hnext, hused⟩ := h.window (fun hl => hlast ((hsince _).mpr hl)) c hc hkey
        exact ⟨origin, w, hf, hsound, hnext, fun i hi => hused i ((hsince i).mp hi)⟩
      · rw [List.mem_singleton.mp hc] at hkey
        exact absurd hkey hk

lemma Tracked.usedAt {k' : PublicKey} {ck : ChainKey} {counter : UInt32} {gen : MessageKeyGenerator}
    (h : Tracked log k s) (hck : s.receiverChainKey k' = .ok (some ck))
    (hgen : getOrCreateMessageKeys s k' ck counter = .ok (gen, s')) :
    Tracked (log ++ [.used k'.serialize counter.toNat]) k s' := by
  by_cases hk : k'.serialize = k
  · subst hk
    exact h.used hck hgen
  · exact h.other hk (getOrCreateMessageKeys_changed hgen) _

lemma Tracked.duplicate {k : PublicKey} {ck : ChainKey} {counter : UInt32} (h : Tracked log k.serialize s)
    (hlast : ¬ UsedSince k.serialize lastCounter log) (hck : s.receiverChainKey k = .ok (some ck))
    (hused : UsedSince k.serialize counter.toNat log) :
    getOrCreateMessageKeys s k ck counter = .error (.duplicateMessage counter) := by
  obtain ⟨a, c, b, origin, w, hat, hf, hsound, hnext, hwindow, rfl⟩ := h.line hlast hck
  have hnone := hsound.use_of_used (hwindow _ hused)
  rw [Window.use] at hnone
  split at hnone
  · rename_i hlt
    split at hnone
    · cases hnone
    · rename_i hcache
      rw [getOrCreateMessageKeys_behind hat hf hsound hnext hlt, if_neg hcache]
  · cases hnone

lemma Tracked.receiverChainKey {k : PublicKey} (h : Tracked log k.serialize s)
    (hlast : ¬ UsedSince k.serialize lastCounter log) (hheld : s.holdsChain k.serialize = true) :
    ∃ ck, s.receiverChainKey k = .ok (some ck) := by
  obtain ⟨c0, hc0, hkey0⟩ := holdsChain_iff.mp hheld
  obtain ⟨c, hfind⟩ : ∃ c, s.receiverChains.find? (·.senderRatchetKey == k.serialize) = some c := by
    rw [← Option.isSome_iff_exists, List.find?_isSome]
    exact ⟨c0, hc0, beq_iff_eq.mpr hkey0⟩
  obtain ⟨a, b, hat⟩ := SessionState.at_of_find? hfind
  obtain ⟨origin, w, hf, _⟩ := h.window hlast c (List.mem_of_find?_eq_some hfind) hat.key
  exact ⟨_, hat.receiverChainKey hf.chainKey⟩

end

/-! ## Conversations -/

/-- A counter is used again only after its chain was opened again or went past its last counter. -/
def UsedOnce (log : List ChainUse) : Prop :=
  ∀ pre post k i, log = pre ++ .used k i :: post → UsedSince k i pre → UsedSince k lastCounter pre

lemma UsedOnce.opened {log : List ChainUse} (h : UsedOnce log) (k : Bytes) :
    UsedOnce (log ++ [.opened k ()]) := by
  intro pre post k' i hlog
  rcases split_concat hlog with ⟨_, _, he⟩ | ⟨post', _, hlog⟩
  · cases he
  · exact h pre post' k' i hlog

lemma UsedOnce.used {log : List ChainUse} {k : Bytes} {i : Nat} (h : UsedOnce log)
    (hnew : UsedSince k i log → UsedSince k lastCounter log) : UsedOnce (log ++ [.used k i]) := by
  intro pre post k' i' hlog
  rcases split_concat hlog with ⟨_, rfl, he⟩ | ⟨post', _, hlog⟩
  · cases he
    exact hnew
  · exact h pre post' k' i' hlog

section
variable [Hash]

structure Received (log : List ChainUse) (s : SessionState) : Prop where
  once : UsedOnce log
  tracked : ∀ k, Tracked log k s

variable {log : List ChainUse} {s s' : SessionState}

lemma Received.used {k : PublicKey} {ck : ChainKey} {counter : UInt32} {gen : MessageKeyGenerator}
    (h : Received log s) (hck : s.receiverChainKey k = .ok (some ck))
    (hgen : getOrCreateMessageKeys s k ck counter = .ok (gen, s')) :
    Received (log ++ [.used k.serialize counter.toNat]) s' := by
  refine ⟨h.once.used fun hused => ?_, fun k' => (h.tracked k').usedAt hck hgen⟩
  by_contra hlast
  rw [(h.tracked _).duplicate hlast hck hused] at hgen
  cases hgen

lemma Received.opened [X25519] {k : PublicKey} {ck : ChainKey} {rng : Reader} (h : Received log s)
    (hnone : s.receiverChainKey k = .ok none) (hstep : dhRatchetStep s k rng = .ok (ck, s')) :
    Received (log ++ [.opened k.serialize ()]) s' :=
  ⟨h.once.opened _, fun _ => (h.tracked _).opened hnone hstep⟩

lemma dhRatchetStep_receiverChainKey [X25519] {s2 : SessionState} {k : PublicKey} {ck : ChainKey} {rng : Reader}
    (hnone : s.receiverChainKey k = .ok none) (hstep : dhRatchetStep s k rng = .ok (ck, s'))
    (hchanged : ChangedAt k s' s2) : s'.receiverChainKey k = .ok (some ck) := by
  obtain ⟨a, c, b, _, hat, _⟩ := hchanged
  have hmem : c ∈ s'.receiverChains := by
    rw [hat.chains]
    exact List.mem_append_right _ List.mem_cons_self
  rcases List.mem_append.mp ((dhRatchetStep_appends hstep).2.mem hmem) with hc | hc
  · exact absurd hat.key (SessionState.receiverChainKey_none hnone c hc)
  · rw [List.mem_singleton.mp hc] at hat
    exact hat.receiverChainKey rfl

lemma Begun.received [X25519] [StateCodec] [Kem.Kyber1024] [EdwardsPoints] (h : Begun s) : Received [] s := by
  refine ⟨fun pre _ k i _ hused => ?_, fun k => ⟨?_, fun _ c hc hkey => ?_⟩⟩
  · rename_i post hlog
    exact absurd hlog.symm (List.append_ne_nil_of_right_ne_nil _ (List.cons_ne_nil _ _))
  · rcases h.chains with hnil | ⟨k', ck, _, hone⟩
    · rw [hnil]
      exact Nat.zero_le _
    · rw [hone]
      exact List.count_le_length
  · rcases h.chains with hnil | ⟨k', ck, hindex, hone⟩
    · rw [hnil] at hc
      exact absurd hc List.not_mem_nil
    · rw [hone, List.mem_singleton] at hc
      subst hc
      subst hkey
      refine ⟨ck, .start 0, follows_new hindex, Window.sound_start _ _, by decide, fun i hi => ?_⟩
      exact absurd hi (not_usedSince_nil _ _)

variable [X25519] [IncrementalKem] [StateCodec] [Aes] [Wire SignalMessagePB] [Wire PreKeySignalMessagePB]

def receiveNote (s : SessionState) : SessionEvent → SessionState → List ChainUse
  | .sent _, _ => []
  | .received m _, _ => receiveEvents s m

lemma Received.step {e : SessionEvent} (h : Received log s) (hstep : SessionStep s e s') :
    Received (log ++ receiveNote s e s') s' := by
  cases hstep with
  | sent hkeys hsend hbuild hset =>
    obtain ⟨_, _, _, rfl⟩ := SessionState.pqRatchetSend_inv hsend
    obtain ⟨_, _, rfl⟩ := SessionState.setSenderChainKey_inv hset
    rw [receiveNote, List.append_nil]
    exact ⟨h.once, fun k => (h.tracked k).aside rfl⟩
  | @received _ m rng ptext hdec =>
    obtain ⟨_, _, ck, s1, gen, s2, key, s3, _, _, _, hck, hgen, hrecv, _, _, _, _, _, rfl⟩ :=
      decryptWithState_inv hdec
    have hchains : s3.clearUnacknowledgedPreKeyMessage.receiverChains = s2.receiverChains := by
      obtain ⟨_, _, _, rfl⟩ := SessionState.pqRatchetRecv_inv hrecv
      rfl
    suffices h : Received (log ++ receiveEvents s m) s2 from
      ⟨h.once, fun k => (h.tracked k).aside hchains⟩
    rw [receiveEvents]
    rcases getOrCreateChainKey_inv hck with ⟨hfound, rfl⟩ | ⟨hnone, hdh⟩
    · obtain ⟨c, _, hfind, _⟩ := SessionState.receiverChainKey_some hfound
      obtain ⟨_, _, hat⟩ := SessionState.at_of_find? hfind
      have hheld : s1.holdsChain m.senderRatchet.serialize = true :=
        holdsChain_iff.mpr ⟨c, List.mem_of_find?_eq_some hfind, hat.key⟩
      rw [if_pos hheld]
      exact h.used hfound hgen
    · have hheld : ¬ s.holdsChain m.senderRatchet.serialize = true := by
        rintro hheld
        obtain ⟨c, hc, hkey⟩ := holdsChain_iff.mp hheld
        exact SessionState.receiverChainKey_none hnone c hc hkey
      rw [if_neg hheld, ← List.append_assoc]
      exact (h.opened hnone hdh).used
        (dhRatchetStep_receiverChainKey hnone hdh (getOrCreateMessageKeys_changed hgen)) hgen

variable [Kem.Kyber1024] [EdwardsPoints] [Wire SessionState] [Wire PreKeyRecordStructure]
  [Wire SignedPreKeyRecordStructure] [Wire RecordStructure] {σ : Type} {host : Host σ}
  {view : σ → ProtocolAddress → Option SessionRecord} {remote : ProtocolAddress}

end

section
attribute [local instance] zeroHash oneX25519 zeroKem Spqr.unaryCodec plainAes Kem.zeroKyber freePoints zeroXEdDSA
attribute [local instance] unaryWire

end

end LibSignal.Session
