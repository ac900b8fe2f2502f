import LibSignal.Session.Once
import LibSignal.Session.Sending

/-!
# The counters of a chain

Where the index of a chain is after a step, and how far ahead a counter may be.
-/

namespace LibSignal.Session
open Address (ProtocolAddress)
open Chunked (Bytes)
open Crypto Curve Lib Lib.Op Proto Protocol
open Ratchet
open Spqr (StateCodec)

/-! ## The index of a receiver chain -/

section
variable {s s' : SessionState} {k : PublicKey} {ck ck' : ChainKey} {counter : UInt32}

lemma receiverChainIndex_keys
    (h : s'.receiverChains.map (·.senderRatchetKey) = s.receiverChains.map (·.senderRatchetKey)) :
    s'.receiverChainIndex k = s.receiverChainIndex k := by
  have hmap : ∀ s : SessionState, s.receiverChainIndex k =
      (s.receiverChains.map (·.senderRatchetKey)).findIdx? (· == k.serialize) := by
    intro s
    rw [List.findIdx?_map]
    rfl
  rw [hmap, hmap, h]

lemma SessionState.At.receiverChainKey_congr {a b a' b' : List Chain} {c c' : Chain} (hat : s.At k a c b)
    (hat' : s'.At k a' c' b') (h : c'.chainKey = c.chainKey) : s'.receiverChainKey k = s.receiverChainKey k := by
  rw [SessionState.receiverChainKey, SessionState.receiverChainKey, hat.find?, hat'.find?]
  simp only [h]

lemma setReceiverChainKey_get (h : s.setReceiverChainKey k ck = .ok s') :
    s'.receiverChainKey k = .ok (some ck) := by
  rw [SessionState.setReceiverChainKey] at h
  split at h
  · cases h
  · rename_i i hi
    obtain ⟨a, c, b, _, hat, _⟩ := changedAt_of_index (f := id) hi fun _ => rfl
    cases hat.receiverChainIndex.symm.trans hi
    cases h
    rw [hat.modifyChain]
    have hset : ({ c with chainKey := some (chainKeyToProto ck) } : Chain).senderRatchetKey =
        c.senderRatchetKey := rfl
    exact (hat.withChains hset).receiverChainKey rfl

lemma takeMessageKeys_receiverChainKey {gen : MessageKeyGenerator}
    (h : s.takeMessageKeys k counter = .ok (some gen, s')) : s'.receiverChainKey k = s.receiverChainKey k := by
  obtain ⟨i, hi⟩ : ∃ i, s.receiverChainIndex k = some i := by
    rw [SessionState.takeMessageKeys] at h
    split at h
    · cases h
    · exact ⟨_, ‹_›⟩
  obtain ⟨a, c, b, _, hat, _⟩ := changedAt_of_index (f := id) hi fun _ => rfl
  rw [hat.takeMessageKeys] at h
  split at h
  · cases h
  · obtain ⟨gen', _, h⟩ := map_eq_ok h
    cases h
    exact hat.receiverChainKey_congr (hat.withChains rfl) rfl

variable [Hash]

lemma skipMessageKeys_index (fuel : Nat) : ∀ {ck ck' : ChainKey} {s s' : SessionState}, ck.index ≤ counter →
    fuel = (counter - ck.index).toNat → skipMessageKeys k counter fuel ck s = .ok (ck', s') →
    ck'.index = counter := by
  induction fuel with
  | zero =>
    intro ck ck' s s' hle hfuel h
    rw [UInt32.toNat_sub_of_le _ _ hle] at hfuel
    rw [UInt32.le_iff_toNat_le] at hle
    cases h
    rw [← UInt32.toNat_inj]
    omega
  | succ fuel ih =>
    intro ck ck' s s' hle hfuel h
    rw [UInt32.toNat_sub_of_le _ _ hle] at hfuel
    have hlt : ck.index < counter := by
      rw [UInt32.lt_iff_toNat_lt]
      omega
    have hcounter := counter.toNat_lt
    have hnext : ck.next.index.toNat = ck.index.toNat + 1 := by
      change (ck.index + 1).toNat = _
      rw [UInt32.toNat_add]
      exact Nat.mod_eq_of_lt (by change ck.index.toNat + 1 < 2 ^ 32; omega)
    have hle' : ck.next.index ≤ counter := by
      rw [UInt32.le_iff_toNat_le, hnext]
      omega
    rw [skipMessageKeys, if_pos hlt] at h
    obtain ⟨s1, _, h⟩ := bind_eq_ok h
    refine ih hle' ?_ h
    rw [UInt32.toNat_sub_of_le _ _ hle', hnext]
    omega

lemma getOrCreateMessageKeys_index {gen : MessageKeyGenerator} (hck : s.receiverChainKey k = .ok (some ck))
    (h : getOrCreateMessageKeys s k ck counter = .ok (gen, s')) :
    ∃ ck', s'.receiverChainKey k = .ok (some ck') ∧ (counter < ck.index → ck'.index = ck.index) ∧
      (ck.index ≤ counter → ck'.index = counter + 1) := by
  rw [getOrCreateMessageKeys] at h
  split at h
  · rename_i hlt
    obtain ⟨⟨found, s1⟩, htake, h⟩ := bind_eq_ok h
    cases found with
    | none => cases h
    | some gen' =>
      cases h
      exact ⟨ck, (takeMessageKeys_receiverChainKey htake).trans hck, fun _ => rfl,
        fun hle => absurd hlt (UInt32.not_lt.mpr hle)⟩
  · rename_i hnlt
    split at h
    · cases h
    · obtain ⟨⟨ck1, s1⟩, hskip, h⟩ := bind_eq_ok h
      obtain ⟨s2, hset, h⟩ := bind_eq_ok h
      cases h
      refine ⟨ck1.next, setReceiverChainKey_get hset, fun hlt => absurd hlt hnlt, fun hle => ?_⟩
      change ck1.index + 1 = _
      rw [skipMessageKeys_index _ hle rfl hskip]

lemma cacheMessageKeys_ok {i : Nat} (hi : s.receiverChainIndex k = some i) (ck : ChainKey) :
    ∃ s', s.cacheMessageKeys k ck.messageKeys = .ok s' := by
  rw [SessionState.cacheMessageKeys, hi]
  exact ⟨_, rfl⟩

lemma skipMessageKeys_ok (counter : UInt32) (fuel : Nat) : ∀ (ck : ChainKey) {s : SessionState} {i : Nat},
    s.receiverChainIndex k = some i → ∃ ck' s', skipMessageKeys k counter fuel ck s = .ok (ck', s') ∧
      s'.receiverChainIndex k = some i := by
  induction fuel with
  | zero => exact fun _ _ _ hi => ⟨_, _, rfl, hi⟩
  | succ fuel ih =>
    intro ck s i hi
    rw [skipMessageKeys]
    split
    · obtain ⟨s1, hs1⟩ := cacheMessageKeys_ok hi ck
      rw [hs1, ok_bind]
      exact ih _ ((receiverChainIndex_keys (cacheMessageKeys_changed hs1).keys).trans hi)
    · exact ⟨_, _, rfl, hi⟩

lemma getOrCreateMessageKeys_accepts (hck : s.receiverChainKey k = .ok (some ck)) (hle : ck.index ≤ counter) :
    (∃ r, getOrCreateMessageKeys s k ck counter = .ok r) ↔ counter - ck.index ≤ maxForwardJumps := by
  obtain ⟨c, _, hfind, _⟩ := SessionState.receiverChainKey_some hck
  obtain ⟨a, b, hat⟩ := SessionState.at_of_find? hfind
  rw [getOrCreateMessageKeys, if_neg (UInt32.not_lt.mpr hle)]
  split
  · rename_i hfar
    refine ⟨by rintro ⟨_, ⟨⟩⟩, fun hnear => absurd hfar (UInt32.not_lt.mpr hnear)⟩
  · rename_i hnear
    refine ⟨fun _ => UInt32.not_lt.mp hnear, fun _ => ?_⟩
    obtain ⟨ck1, s1, hskip, hi⟩ := skipMessageKeys_ok counter (counter - ck.index).toNat ck
      hat.receiverChainIndex
    simp only [hskip, ok_bind, SessionState.setReceiverChainKey, hi]
    exact ⟨_, rfl⟩

end

/-! ## The index of the sending chain -/

def signalOf : Option SignalMessage × Option PreKeySignalMessage → Option SignalMessage
  | (some m, _) => some m
  | (none, some p) => some p.message
  | (none, none) => none

section
variable [Hash] [Aes] [Wire SignalMessagePB] [Wire PreKeySignalMessagePB]

lemma buildMessage_signal {s : SessionState} {senderID receiverID : PublicKey} {ck : ChainKey}
    {pqrMsg pqrKey plaintext : Bytes} {now : Int} {out : Option SignalMessage × Option PreKeySignalMessage}
    (h : buildMessage s senderID receiverID ck pqrMsg pqrKey plaintext now = .ok out) :
    ∃ m, signalOf out = some m ∧ s.senderRatchetKey = .ok m.senderRatchet ∧ m.counter = ck.index ∧
      m.pqRatchet = pqrMsg := by
  obtain ⟨mk, ratchetKey, ctext, signal, _, hratchet, _, hsignal, hwrap⟩ := buildMessage_inv h
  obtain ⟨_, rfl⟩ := newSignalMessage_inv hsignal
  rw [wrapPreKey] at hwrap
  split at hwrap
  · cases hwrap
    exact ⟨_, rfl, hratchet, rfl, rfl⟩
  · split at hwrap
    · cases hwrap
    · obtain ⟨base, _, hwrap⟩ := bind_eq_ok hwrap
      cases hwrap
      exact ⟨_, rfl, hratchet, rfl, rfl⟩

end

lemma setSenderChainKey_get {s s' : SessionState} {ck : ChainKey} (h : s.setSenderChainKey ck = .ok s') :
    s'.senderChainKey = .ok ck ∧ s'.senderRatchetKey = s.senderRatchetKey := by
  obtain ⟨sc, hsc, rfl⟩ := SessionState.setSenderChainKey_inv h
  refine ⟨chainKeyFromProto_toProto ck, ?_⟩
  rw [SessionState.senderRatchetKey, SessionState.senderRatchetKey, hsc]

section
variable [Hash] [X25519] [IncrementalKem] [StateCodec] [Aes] [Wire SignalMessagePB] [Wire PreKeySignalMessagePB]
  {s s' : SessionState} {e : SessionEvent} {log : List ChainUse}

lemma SessionStep.sent_inv {out : Option SignalMessage × Option PreKeySignalMessage}
    (h : SessionStep s (.sent out) s') : ∃ m ck, signalOf out = some m ∧ s.senderChainKey = .ok ck ∧
      m.counter = ck.index ∧ s.senderRatchetKey = .ok m.senderRatchet ∧
      s'.senderRatchetKey = .ok m.senderRatchet ∧ s'.senderChainKey = .ok ck.next := by
  cases h with
  | sent hkeys hsend hbuild hset =>
    obtain ⟨_, _, _, rfl⟩ := SessionState.pqRatchetSend_inv hsend
    obtain ⟨m, hm, hratchet, hcounter, _⟩ := buildMessage_signal hbuild
    obtain ⟨hck', hratchet'⟩ := setSenderChainKey_get hset
    exact ⟨m, _, hm, (sendingKeys_inv hkeys).2.2, hcounter, hratchet, hratchet'.trans hratchet, hck'⟩

variable {m : SignalMessage}

lemma SessionStep.sent_ratchet {out : Option SignalMessage × Option PreKeySignalMessage}
    (h : SessionStep s (.sent out) s') (hm : signalOf out = some m) :
    ∃ rng res, Spqr.send s.pqRatchetState rng = .ok res ∧ m.pqRatchet = res.msg ∧
      s'.pqRatchetState = res.state := by
  cases h with
  | sent hkeys hsend hbuild hset =>
    obtain ⟨res, hres, hout, rfl⟩ := SessionState.pqRatchetSend_inv hsend
    cases hout
    obtain ⟨m', hm', _, _, hratchet⟩ := buildMessage_signal hbuild
    cases hm.symm.trans hm'
    obtain ⟨_, _, rfl⟩ := SessionState.setSenderChainKey_inv hset
    exact ⟨_, res, hres, hratchet, rfl⟩

omit [Wire SignalMessagePB] [Wire PreKeySignalMessagePB] in
lemma decryptWithState_sender {rng : Reader} {ptext : Bytes} (hdec : decryptWithState s m rng = .ok (ptext, s')) :
    (s.holdsChain m.senderRatchet.serialize = true ∧ s'.senderChain = s.senderChain) ∨
      (s.holdsChain m.senderRatchet.serialize = false ∧ ∃ pair ck, generateKeyPair rng = .ok pair ∧
        s'.senderRatchetKey = .ok pair.publicKey ∧ s'.senderChainKey = .ok ck ∧ ck.index = 0) := by
  obtain ⟨_, _, ck, s1, gen, s2, key, s3, _, _, _, hck, hgen, hrecv, _, _, _, _, _, rfl⟩ :=
    decryptWithState_inv hdec
  obtain ⟨_, _, _, rfl⟩ := SessionState.pqRatchetRecv_inv hrecv
  have hchain : s2.senderChain = s1.senderChain := by
    rw [getOrCreateMessageKeys_frame hgen]
    rfl
  rcases getOrCreateChainKey_inv hck with ⟨hfound, rfl⟩ | ⟨hnone, hstep⟩
  · obtain ⟨c, _, hfind, _⟩ := SessionState.receiverChainKey_some hfound
    obtain ⟨_, _, hat⟩ := SessionState.at_of_find? hfind
    exact .inl ⟨holdsChain_iff.mpr ⟨c, List.mem_of_find?_eq_some hfind, hat.key⟩, hchain⟩
  · refine .inr ⟨?_, ?_⟩
    · refine Bool.eq_false_iff.mpr fun hheld => ?_
      obtain ⟨c, hc, hkey⟩ := holdsChain_iff.mp hheld
      exact SessionState.receiverChainKey_none hnone c hc hkey
    · obtain ⟨_, _, _, ourNew, _, senderChain, _, _, _, hnew, hcreate, counter, rfl⟩ := dhRatchetStep_inv hstep
      obtain ⟨_, _, _, hstart⟩ := RootKey.createChain_inv hcreate
      refine ⟨ourNew, senderChain, hnew, ?_, ?_, by rw [hstart]; rfl⟩
      · change SessionState.senderRatchetKey
          { s2 with pqRatchetState := _, pendingPreKey := none, pendingKyberPreKey := none } = _
        rw [SessionState.senderRatchetKey]
        simp only [hchain, SessionState.setSenderChain, deserializePublicKey_serialize]
        rfl
      · change SessionState.senderChainKey
          { s2 with pqRatchetState := _, pendingPreKey := none, pendingKyberPreKey := none } = _
        rw [SessionState.senderChainKey]
        simp only [hchain, SessionState.setSenderChain]
        exact chainKeyFromProto_toProto _

lemma SessionStep.received_inv {ptext : Bytes} (h : SessionStep s (.received m ptext) s') :
    (s.holdsChain m.senderRatchet.serialize = true ∧ s'.senderChain = s.senderChain) ∨
      (s.holdsChain m.senderRatchet.serialize = false ∧ ∃ pk, s'.senderRatchetKey = .ok pk) := by
  cases h with
  | received hdec =>
    refine (decryptWithState_sender hdec).imp_right fun ⟨hheld, pair, _, _, hpair, _⟩ => ?_
    exact ⟨hheld, pair.publicKey, hpair⟩

end

def sendNote (s : SessionState) : SessionEvent → SessionState → List ChainUse
  | .sent out, _ => ((signalOf out).map fun m => .used m.senderRatchet.serialize m.counter.toNat).toList
  | .received m _, s' =>
    if s.holdsChain m.senderRatchet.serialize then []
    else
      match s'.senderRatchetKey with
      | .ok pk => [.opened pk.serialize ()]
      | .error _ => []

/-- A log whose counters are used once, and a sending chain that is ahead of those it used. -/
structure Sent (log : List ChainUse) (s : SessionState) : Prop where
  once : UsedOnce log
  ahead : ∀ pk ck, s.senderRatchetKey = .ok pk → s.senderChainKey = .ok ck →
    ¬ UsedSince pk.serialize lastCounter log → ∀ i, UsedSince pk.serialize i log → i < ck.index.toNat

lemma sent_nil (s : SessionState) : Sent [] s := by
  refine ⟨fun pre post k i hlog => ?_, fun _ _ _ _ _ _ hi => absurd hi (not_usedSince_nil _ _)⟩
  exact absurd hlog.symm (List.append_ne_nil_of_right_ne_nil _ (List.cons_ne_nil _ _))

lemma next_index_toNat [Hash] {ck : ChainKey} (h : ck.index.toNat ≠ lastCounter) :
    ck.next.index.toNat = ck.index.toNat + 1 := by
  have hlt := ck.index.toNat_lt
  rw [lastCounter] at h
  change (ck.index + 1).toNat = _
  rw [UInt32.toNat_add]
  exact Nat.mod_eq_of_lt (by change ck.index.toNat + 1 < 2 ^ 32; omega)

section
variable [Hash] [X25519] [IncrementalKem] [StateCodec] [Aes] [Wire SignalMessagePB] [Wire PreKeySignalMessagePB]
  {s s' : SessionState} {e : SessionEvent} {log : List ChainUse}

lemma Sent.step (h : Sent log s) (hstep : SessionStep s e s') : Sent (log ++ sendNote s e s') s' := by
  cases e with
  | sent out =>
    obtain ⟨m, ck, hm, hck, hcounter, hratchet, hratchet', hck'⟩ := hstep.sent_inv
    rw [sendNote, hm]
    refine ⟨h.once.used fun hused => ?_, ?_⟩
    · -- an index that was used is below the index of the chain
      by_contra hlast
      have hlt := h.ahead _ ck hratchet hck hlast _ hused
      rw [hcounter] at hlt
      exact absurd hlt (lt_irrefl _)
    · intro pk ck1 hpk hck1 hlast i hi
      cases hpk.symm.trans hratchet'
      cases hck1.symm.trans hck'
      have hne : ck.index.toNat ≠ lastCounter := by
        intro heq
        rw [← heq, ← hcounter] at hlast
        exact hlast (usedSince_used _ _ _)
      have hold : ¬ UsedSince m.senderRatchet.serialize lastCounter log :=
        fun hl => hlast (hl.snoc fun _ => nofun)
      rw [next_index_toNat hne]
      rcases hi.concat with he | ⟨hi, _⟩
      · cases he
        rw [hcounter]
        exact Nat.lt_succ_self _
      · exact (h.ahead _ ck hratchet hck hold i hi).trans (Nat.lt_succ_self _)
  | received m ptext =>
    rw [sendNote]
    rcases hstep.received_inv with ⟨hheld, hchain⟩ | ⟨hheld, pk, hpk⟩
    · rw [if_pos hheld, List.append_nil]
      refine ⟨h.once, fun pk ck hpk hck => ?_⟩
      rw [SessionState.senderRatchetKey, hchain] at hpk
      rw [SessionState.senderChainKey, hchain] at hck
      exact h.ahead pk ck hpk hck
    · rw [if_neg (by rw [hheld]; exact Bool.false_ne_true)]
      simp only [hpk]
      refine ⟨h.once.opened _, fun pk' ck hpk' _ _ i hi => ?_⟩
      cases hpk.symm.trans hpk'
      exact absurd hi (not_usedSince_opened _ _ _ _)

end

/-! ## Steps at the last index -/

/-- A chain that an event moves goes forward: the sending chain of a message that is sent, and the receiver
chain of one that is received from the index on. -/
def Advances (s : SessionState) : SessionEvent → SessionState → Prop
  | .sent _, s' => ∀ ck ck', s.senderChainKey = .ok ck → s'.senderChainKey = .ok ck' → ck.index < ck'.index
  | .received m _, s' => ∀ ck ck', s.receiverChainKey m.senderRatchet = .ok (some ck) →
      s'.receiverChainKey m.senderRatchet = .ok (some ck') →
        ck.index ≤ ck'.index ∧ (ck.index ≤ m.counter → ck.index < ck'.index)

/-- An event at the last index of its chain. -/
def AtLast (s : SessionState) : SessionEvent → Prop
  | .sent _ => ∃ ck, s.senderChainKey = .ok ck ∧ ck.index.toNat = lastCounter
  | .received m _ => m.counter.toNat = lastCounter

/-- A call that is not made at the last index of its chain. -/
def Exchange.BelowLast (s : SessionState) : Exchange → Prop
  | encrypt _ _ _ => ∀ ck, s.senderChainKey = .ok ck → ck.index.toNat ≠ lastCounter
  | decrypt m _ => m.counter.toNat ≠ lastCounter
  | decryptPreKey m _ => m.message.counter.toNat ≠ lastCounter

section
variable [Hash] [X25519] [IncrementalKem] [StateCodec] [Aes] [Wire SignalMessagePB] [Wire PreKeySignalMessagePB]
  {s s' : SessionState} {e : SessionEvent} {log : List ChainUse}

lemma SessionStep.advances_sent {out : Option SignalMessage × Option PreKeySignalMessage}
    (h : SessionStep s (.sent out) s') : Advances s (.sent out) s' ↔ ¬ AtLast s (.sent out) := by
  obtain ⟨m, ck, _, hck, _, _, _, hck'⟩ := h.sent_inv
  have hiff : Advances s (.sent out) s' ↔ ck.index < ck.next.index := by
    refine ⟨fun hadv => hadv ck _ hck hck', fun hlt ck1 ck2 h1 h2 => ?_⟩
    cases hck.symm.trans h1
    cases hck'.symm.trans h2
    exact hlt
  rw [hiff]
  constructor
  · rintro hlt ⟨ck1, hck1, hlast⟩
    cases hck.symm.trans hck1
    have hwrap : ck.next.index = 0 := by
      change ck.index + 1 = 0
      rw [← UInt32.toNat_inj, UInt32.toNat_add, hlast]
      rfl
    rw [hwrap] at hlt
    exact UInt32.not_lt_zero hlt
  · intro hlast
    rw [UInt32.lt_iff_toNat_lt, next_index_toNat fun heq => hlast ⟨ck, hck, heq⟩]
    exact Nat.lt_succ_self _

lemma SessionStep.received_index {m : SignalMessage} {ptext : Bytes} (h : SessionStep s (.received m ptext) s') :
    (s.receiverChainKey m.senderRatchet = .ok none ∧ m.counter.toNat ≤ 25000) ∨
      ∃ ck ck', s.receiverChainKey m.senderRatchet = .ok (some ck) ∧
        s'.receiverChainKey m.senderRatchet = .ok (some ck') ∧
        (m.counter < ck.index → ck'.index = ck.index) ∧ (ck.index ≤ m.counter → ck'.index = m.counter + 1) := by
  cases h with
  | @received _ m rng ptext hdec =>
    obtain ⟨_, _, ck, s1, gen, s2, key, s3, _, _, _, hck, hgen, hrecv, _, _, _, _, _, rfl⟩ :=
      decryptWithState_inv hdec
    obtain ⟨_, _, _, rfl⟩ := SessionState.pqRatchetRecv_inv hrecv
    rcases getOrCreateChainKey_inv hck with ⟨hfound, rfl⟩ | ⟨hnone, hstep⟩
    · obtain ⟨ck', hck', hbehind, hahead⟩ := getOrCreateMessageKeys_index hfound hgen
      exact .inr ⟨ck, ck', hfound, hck', hbehind, hahead⟩
    · refine .inl ⟨hnone, ?_⟩
      -- a fresh chain starts at 0, so the counter is the jump
      have hfound := dhRatchetStep_receiverChainKey hnone hstep (getOrCreateMessageKeys_changed hgen)
      have hindex := (dhRatchetStep_appends hstep).1
      have hzero : ck.index ≤ m.counter := by
        rw [hindex]
        exact UInt32.zero_le
      have hnear := (getOrCreateMessageKeys_accepts hfound hzero).mp ⟨_, hgen⟩
      rw [hindex, UInt32.sub_zero, UInt32.le_iff_toNat_le] at hnear
      exact hnear

lemma SessionStep.advances_received {m : SignalMessage} {ptext : Bytes}
    (h : SessionStep s (.received m ptext) s') :
    Advances s (.received m ptext) s' ↔ ¬ AtLast s (.received m ptext) := by
  rcases h.received_index with ⟨hnone, hsmall⟩ | ⟨ck, ck', hck, hck', hbehind, hahead⟩
  · refine ⟨fun _ (hlast : m.counter.toNat = 2 ^ 32 - 1) => ?_, fun _ ck ck' hck => ?_⟩
    · omega
    · rw [hnone] at hck
      cases hck
  · have hlt := m.counter.toNat_lt
    constructor
    · intro hadv (hlast : m.counter.toNat = 2 ^ 32 - 1)
      have hle : ck.index ≤ m.counter := by
        have hindex := ck.index.toNat_lt
        rw [UInt32.le_iff_toNat_le]
        omega
      have hgrow := (hadv ck ck' hck hck').2 hle
      have hwrap : m.counter + 1 = 0 := by
        rw [← UInt32.toNat_inj, UInt32.toNat_add, hlast]
        rfl
      rw [hahead hle, hwrap] at hgrow
      exact UInt32.not_lt_zero hgrow
    · intro (hlast : ¬ m.counter.toNat = 2 ^ 32 - 1) ck1 ck2 h1 h2
      cases hck.symm.trans h1
      cases hck'.symm.trans h2
      have hsucc : (m.counter + 1).toNat = m.counter.toNat + 1 := by
        rw [UInt32.toNat_add]
        exact Nat.mod_eq_of_lt (by change m.counter.toNat + 1 < 2 ^ 32; omega)
      have hgrow : ck.index ≤ m.counter → ck.index < ck'.index := by
        intro hle
        rw [hahead hle, UInt32.lt_iff_toNat_lt, hsucc]
        exact Nat.lt_succ_of_le (UInt32.le_iff_toNat_le.mp hle)
      refine ⟨?_, hgrow⟩
      by_cases hle : ck.index ≤ m.counter
      · exact UInt32.le_of_lt (hgrow hle)
      · rw [hbehind (UInt32.not_le.mp hle)]
        exact UInt32.le_refl _

lemma belowLast_notes {c : Exchange} (hc : c.BelowLast s) (hmakes : c.Makes e) (hstep : SessionStep s e s')
    (k : Bytes) : .used k lastCounter ∉ sendNote s e s' ∧ .used k lastCounter ∉ receiveNote s e s' := by
  cases e with
  | sent out =>
    refine ⟨fun hmem => ?_, List.not_mem_nil⟩
    obtain ⟨m, ck, hm, hck, hcounter, _⟩ := hstep.sent_inv
    rw [sendNote, hm, Option.map_some, Option.toList_some, List.mem_singleton, hcounter] at hmem
    cases c with
    | encrypt plaintext now rng => exact hc ck hck (LineEvent.used.inj hmem).2.symm
    | decrypt m rng => exact hmakes
    | decryptPreKey m rng => exact hmakes
  | received m ptext =>
    have hm : m.counter.toNat ≠ lastCounter := by
      cases c with
      | encrypt plaintext now rng => exact absurd hmakes id
      | decrypt m' rng => exact (show m = m' from hmakes) ▸ hc
      | decryptPreKey m' rng => exact (show m = m'.message from hmakes) ▸ hc
    constructor
    · rw [sendNote]
      split
      · exact List.not_mem_nil
      · split
        · intro hmem
          cases List.mem_singleton.mp hmem
        · exact List.not_mem_nil
    · rw [receiveNote, receiveEvents]
      split
      · exact fun hmem => hm (LineEvent.used.inj (List.mem_singleton.mp hmem)).2.symm
      · intro hmem
        rcases List.mem_append.mp hmem with hmem | hmem
        · cases List.mem_singleton.mp hmem
        · exact hm (LineEvent.used.inj (List.mem_singleton.mp hmem)).2.symm

end

def NeverTwice (log : List ChainUse) : Prop :=
  ∀ pre post k i, log = pre ++ .used k i :: post → ¬ UsedSince k i pre

lemma UsedOnce.neverTwice {log : List ChainUse} (h : UsedOnce log) (hlast : ∀ k, .used k lastCounter ∉ log) :
    NeverTwice log := by
  intro pre post k i hlog hused
  obtain ⟨pre', post', rfl, _⟩ := h pre post k i hlog hused
  refine hlast k ?_
  rw [hlog]
  exact List.mem_append_left _ (List.mem_append_right _ List.mem_cons_self)

section
variable [Hash] [X25519] [IncrementalKem] [StateCodec] [Aes] [Wire SignalMessagePB] [Wire PreKeySignalMessagePB]
  [Kem.Kyber1024] [EdwardsPoints] [Wire SessionState] [Wire PreKeyRecordStructure]
  [Wire SignedPreKeyRecordStructure] [Wire RecordStructure]

/-- A step moves its chain forward exactly if it is not at the last index, where the chain starts again at 0. In
a conversation without such a step no counter of a chain is sent or accepted twice. -/
theorem counters_advance : (∀ (s : SessionState) (e : SessionEvent) (s' : SessionState), SessionStep s e s' →
      (Advances s e s' ↔ ¬ AtLast s e)) ∧
    ∀ {σ : Type} {host : Host σ} {view : σ → ProtocolAddress → Option SessionRecord} {remote : ProtocolAddress},
      host.ByValue view → ∀ (t : σ) (s : SessionState), CurrentAt remote s (view t) → Begun s →
      ∀ calls : List Exchange, Throughout host view remote (fun s c => c.Belongs s ∧ c.BelowLast s) calls t →
        NeverTwice (notes host view remote sendNote calls t) ∧
        NeverTwice (notes host view remote receiveNote calls t) := by
  constructor
  · intro s e s' hstep
    cases e with
    | sent out => exact hstep.advances_sent
    | received m ptext => exact hstep.advances_received
  · intro σ host view remote hv t s hcur hs calls hcalls
    obtain ⟨_, _, hsent, hnone⟩ := converse_invariant sendNote
      (I := fun log s => Sent log s ∧ ∀ k, .used k lastCounter ∉ log) hv (fun _ _ h => h.1)
      (fun hP hmakes hI hstep => ⟨hI.1.step hstep, fun k hmem => (List.mem_append.mp hmem).elim (hI.2 k)
        (belowLast_notes hP.2 hmakes hstep k).1⟩) calls hcur hcalls ⟨sent_nil s, fun _ => List.not_mem_nil⟩
    obtain ⟨_, _, hreceived, hnone'⟩ := converse_invariant receiveNote
      (I := fun log s => Received log s ∧ ∀ k, .used k lastCounter ∉ log) hv (fun _ _ h => h.1)
      (fun hP hmakes hI hstep => ⟨hI.1.step hstep, fun k hmem => (List.mem_append.mp hmem).elim (hI.2 k)
        (belowLast_notes hP.2 hmakes hstep k).2⟩) calls hcur hcalls ⟨hs.received, fun _ => List.not_mem_nil⟩
    exact ⟨hsent.once.neverTwice hnone, hreceived.once.neverTwice hnone'⟩

end

section
attribute [local instance] zeroHash oneX25519 zeroKem Spqr.unaryCodec plainAes Kem.zeroKyber freePoints zeroXEdDSA
attribute [local instance] unaryWire

/-- The theorem on the in-memory stores and the session of a bundle that sends two messages. -/
theorem counters_advance_sample : ∃ s t, CurrentAt Stores.samplePeer s t.records ∧ Begun s ∧
    NeverTwice (notes Stores.InMem.host Stores.InMem.records Stores.samplePeer sendNote
      [.encrypt [1] 0 zeroReader] t) := by
  obtain ⟨s, t, hs, hrun, hr⟩ := Stores.sample_processed
  have hcur : CurrentAt Stores.samplePeer s t.records := ⟨_, hr, rfl⟩
  have hbegun : Begun s := .initiator hs
  have hindex : ∀ ck, s.senderChainKey = .ok ck → ck.index.toNat ≠ lastCounter := by
    cases hs
    intro ck hck
    cases hck
    decide
  have hcalls : Throughout Stores.InMem.host Stores.InMem.records Stores.samplePeer
      (fun s c => c.Belongs s ∧ c.BelowLast s) [.encrypt [1] 0 zeroReader] t := by
    refine ⟨fun s' hs' => ⟨trivial, ?_⟩, trivial⟩
    cases hs'.bind_current.symm.trans hcur.bind_current
    exact hindex
  exact ⟨s, t, hcur, hbegun, (counters_advance.2 Stores.InMem.byValue t s hcur hbegun _ hcalls).1⟩

lemma sample_exec (t : Stores.InMem) (ht : t.knownKeys Stores.samplePeer = some Stores.sampleKeys.publicKey)
    (index : UInt32) {b : Bytes} (hb : CanSend b) : ∃ out b', CanSend b' ∧
      (Exchange.encrypt [1] 0 zeroReader).exec Stores.InMem.host Stores.samplePeer (sampleStores t index b) =
        (some (.sent out), sampleStores (sampleStores t index b) (index + 1) b') ∧
      ∃ m, signalOf out = some m ∧ m.senderRatchet = Stores.sampleKeys.publicKey ∧ m.counter = index := by
  obtain ⟨res, hsend, hcan⟩ := hb.send zeroReader fun _ => rfl
  obtain ⟨out, hbuild⟩ := sampleSession_build index res.state res.msg (res.key.getD []) [1]
  obtain ⟨m, hm, hratchet, hcounter, _⟩ := buildMessage_signal hbuild
  have hload : Stores.InMem.host.loadSession Stores.samplePeer (sampleStores t index b) = _ :=
    sampleStores_load t index b
  have hknown : (sampleStores t index b).knownKeys Stores.samplePeer = some Stores.sampleKeys.publicKey := ht
  have htrust : Stores.InMem.host.isTrustedIdentity Stores.samplePeer Stores.sampleKeys.publicKey .sending
      (sampleStores t index b) = (.ok true, sampleStores t index b) := by
    change Stores.InMem.isTrustedIdentity _ _ .sending _ = _
    rw [Stores.InMem.isTrustedIdentity, hknown]
    rfl
  have hsave : Stores.InMem.host.saveIdentity Stores.samplePeer Stores.sampleKeys.publicKey
      (sampleStores t index b) = (.ok .newOrUnchanged, sampleStores t index b) := by
    change Stores.InMem.saveIdentity _ _ _ = _
    rw [Stores.InMem.saveIdentity, hknown]
    rfl
  have hrun := encrypt_eq_ok hload rfl (sampleSession_keys index b) (sampleSession_send index hsend) hbuild htrust
    hsave (sampleSession_set index res.state) (show Stores.InMem.host.storeSession _ _ _ = _ from rfl)
  refine ⟨out, res.state, hcan, ?_, m, hm, (Except.ok.inj hratchet).symm, hcounter⟩
  rw [Exchange.exec, hrun]
  rfl

lemma sample_notes (n : Nat) : ∀ (t : Stores.InMem) (i : Nat) {b : Bytes},
    t.knownKeys Stores.samplePeer = some Stores.sampleKeys.publicKey → CanSend b →
    notes Stores.InMem.host Stores.InMem.records Stores.samplePeer sendNote
      (List.replicate n (.encrypt [1] 0 zeroReader)) (sampleStores t i.toUInt32 b) =
    (List.range' i n).map fun j => .used Stores.sampleKeys.publicKey.serialize j.toUInt32.toNat := by
  induction n with
  | zero => exact fun _ _ _ _ _ => rfl
  | succ n ih =>
    intro t i b ht hb
    obtain ⟨out, b', hb', hexec, m, hm, hratchet, hcounter⟩ := sample_exec t ht i.toUInt32 hb
    have hindex : i.toUInt32 + 1 = (i + 1).toUInt32 := (UInt32.ofNat_add i 1).symm
    rw [hindex] at hexec
    rw [List.replicate_succ, notes, hexec, (sampleStores_current t i.toUInt32 b).bind_current,
      (sampleStores_current _ (i + 1).toUInt32 b').bind_current, List.range'_succ, List.map_cons]
    simp only [sendNote, hm, Option.map_some, hratchet, hcounter, ih (sampleStores t i.toUInt32 b) (i + 1) ht hb']
    rfl

/-- A chain is not refused at its last index: of one more than `2 ^ 32` messages of a new session, the last has
the ratchet key and the counter of the first. -/
theorem counter_restarts : ∃ s t, Begun s ∧ CurrentAt Stores.samplePeer s t.records ∧
    ¬ NeverTwice (notes Stores.InMem.host Stores.InMem.records Stores.samplePeer sendNote
      (List.replicate (2 ^ 32 + 1) (.encrypt [1] 0 zeroReader)) t) := by
  obtain ⟨s, authKey, pk, pk', hs, hratchet, hsample⟩ := sampleSession_begun
  let t0 : Stores.InMem := { Stores.InMem.new Stores.sampleKeys 7 with
    knownKeys := fun _ => some Stores.sampleKeys.publicKey }
  have hnotes := sample_notes (2 ^ 32 + 1) t0 0 (b := s.pqRatchetState) rfl
    (hratchet ▸ canSend_initial .a2b authKey pk pk')
  have hcurrent := sampleStores_current t0 (0 : Nat).toUInt32 s.pqRatchetState
  refine ⟨s, _, .initiator hs, hsample ▸ hcurrent, fun hnever => ?_⟩
  -- the first and the last of the counters are both 0
  generalize hk : Stores.sampleKeys.publicKey.serialize = k at hnotes
  have hwrap : (2 ^ 32 : Nat).toUInt32.toNat = 0 := by decide
  have hsplit : (List.range' 0 (2 ^ 32 + 1)).map (fun j => (.used k j.toUInt32.toNat : ChainUse)) =
      (List.range' 0 (2 ^ 32)).map (fun j => (.used k j.toUInt32.toNat : ChainUse)) ++ [.used k 0] := by
    rw [List.range'_1_concat, List.map_append, List.map_singleton, Nat.zero_add, hwrap]
  refine hnever _ [] k 0 (hnotes.trans hsplit) ⟨[], (List.range' 1 (2 ^ 32 - 1)).map
    (fun j => (.used k j.toUInt32.toNat : ChainUse)), ?_, fun o ho => ?_⟩
  · rw [show (2 ^ 32 : Nat) = (2 ^ 32 - 1) + 1 by norm_num, List.range'_succ, List.map_cons]
    rfl
  · obtain ⟨_, _, hj⟩ := List.mem_map.mp ho
    cases hj

end

end LibSignal.Session
