import LibSignal.Lib.LineTable
import LibSignal.Session.Cipher

/-!
# Receiver chains as windows

A receiver chain started from some chain key, `keyAt` gives its keys, and its cache holds the seeds of skipped
indices (`seedAt`).
-/

namespace LibSignal.Session
open Chunked (Bytes)
open Crypto Curve Lib Protocol Ratchet
open Spqr (StateCodec)

/-! ## The chain of a ratchet key -/

namespace SessionState

structure At (s : SessionState) (k : PublicKey) (a : List Chain) (c : Chain) (b : List Chain) : Prop where
  chains : s.receiverChains = a ++ c :: b
  before : ∀ x ∈ a, x.senderRatchetKey ≠ k.serialize
  key : c.senderRatchetKey = k.serialize

variable {s : SessionState} {k : PublicKey} {a b : List Chain} {c : Chain}

lemma At.withChains (h : s.At k a c b) {c' : Chain} (hc : c'.senderRatchetKey = c.senderRatchetKey) :
    (s.withChains (a ++ c' :: b)).At k a c' b := ⟨rfl, h.before, hc.trans h.key⟩

lemma At.withChains_self (h : s.At k a c b) : s.withChains (a ++ c :: b) = s := by
  rw [← h.chains]
  rfl

lemma At.find? (h : s.At k a c b) : s.receiverChains.find? (·.senderRatchetKey == k.serialize) = some c := by
  rw [h.chains, List.find?_append, List.find?_eq_none.mpr, Option.none_or]
  · exact List.find?_cons_of_pos (beq_iff_eq.mpr h.key)
  · exact fun x hx hbeq => h.before x hx (beq_iff_eq.mp hbeq)

lemma At.receiverChainIndex (h : s.At k a c b) : s.receiverChainIndex k = some a.length := by
  rw [SessionState.receiverChainIndex, h.chains, List.findIdx?_append, List.findIdx?_eq_none_iff.mpr,
    Option.none_or, List.findIdx?_cons, beq_iff_eq.mpr h.key]
  · exact congrArg some (Nat.zero_add _)
  · exact fun x hx => beq_false_of_ne (h.before x hx)

lemma At.receiverChainKey (h : s.At k a c b) {ck : ChainKey} (hck : c.chainKey = some (chainKeyToProto ck)) :
    s.receiverChainKey k = .ok (some ck) := by
  rw [SessionState.receiverChainKey, h.find?]
  simp only [hck, chainKeyFromProto_toProto]
  rfl

lemma At.unique {a' b' : List Chain} {c' : Chain} (h : s.At k a c b) (h' : s.At k a' c' b') :
    a = a' ∧ c = c' ∧ b = b' := by
  have hlen : a.length = a'.length := Option.some.inj (h.receiverChainIndex.symm.trans h'.receiverChainIndex)
  obtain ⟨ha, hcb⟩ := List.append_inj (h.chains.symm.trans h'.chains) hlen
  obtain ⟨hc, hb⟩ := List.cons.inj hcb
  exact ⟨ha, hc, hb⟩

lemma at_of_find? (h : s.receiverChains.find? (·.senderRatchetKey == k.serialize) = some c) :
    ∃ a b, s.At k a c b := by
  obtain ⟨hkey, a, b, hsplit, hbefore⟩ := List.find?_eq_some_iff_append.mp h
  refine ⟨a, b, hsplit, fun x hx => ?_, beq_iff_eq.mp hkey⟩
  have hne := hbefore x hx
  simpa using hne

lemma At.modifyChain (h : s.At k a c b) (f : Chain → Chain) :
    s.modifyChain a.length f = s.withChains (a ++ f c :: b) := by
  have hmodify : ∀ a : List Chain, (a ++ c :: b).modify a.length f = a ++ f c :: b := by
    intro a
    induction a with
    | nil => rfl
    | cons x a ih => exact congrArg _ ih
  rw [SessionState.modifyChain, h.chains, hmodify]
  rfl

lemma At.setReceiverChainKey (h : s.At k a c b) (ck : ChainKey) : s.setReceiverChainKey k ck =
    .ok (s.withChains (a ++ { c with chainKey := some (chainKeyToProto ck) } :: b)) := by
  rw [SessionState.setReceiverChainKey, h.receiverChainIndex]
  exact congrArg _ (h.modifyChain _)

lemma At.cacheMessageKeys [Hash] (h : s.At k a c b) {gen : MessageKeyGenerator} {entry : MessageKeyPB}
    (hgen : messageKeyGenToProto gen = .ok entry) : s.cacheMessageKeys k gen =
    .ok (s.withChains
      (a ++ { c with messageKeys := (entry :: c.messageKeys).take maxMessageKeys } :: b)) := by
  rw [SessionState.cacheMessageKeys, h.receiverChainIndex]
  simp only [hgen, ok_bind]
  exact congrArg _ (h.modifyChain _)

lemma At.takeMessageKeys (h : s.At k a c b) (index : UInt32) : s.takeMessageKeys k index =
    match c.messageKeys.find? (·.index == index) with
    | none => .ok (none, s)
    | some e => (messageKeyGenFromProto e).map fun gen => (some gen, s.withChains
        (a ++ { c with messageKeys := c.messageKeys.eraseP (·.index == index) } :: b)) := by
  have hget : s.receiverChains[a.length]? = some c := by
    rw [h.chains, List.getElem?_append_right (le_refl _), Nat.sub_self]
    rfl
  rw [SessionState.takeMessageKeys, h.receiverChainIndex]
  simp only [hget, Option.map_some, Option.getD_some]
  cases c.messageKeys.find? (·.index == index) with
  | none => rfl
  | some e =>
    cases hgen : messageKeyGenFromProto e with
    | error err => simp only [hgen]; rfl
    | ok gen => simp only [hgen]; exact congrArg (fun t => Except.ok (some gen, t)) (h.modifyChain _)

end SessionState

/-! ## The keys of a chain -/

section
variable [Hash]

def keyAt (origin : ChainKey) (n : Nat) : ChainKey := ChainKey.next^[n] origin

lemma keyAt_succ (origin : ChainKey) (n : Nat) : keyAt origin (n + 1) = (keyAt origin n).next :=
  Function.iterate_succ_apply' _ _ _

variable {origin : ChainKey} {t : List (Line Bytes ChainKey)}

lemma keyAt_index (h : origin.index = 0) (n : Nat) : (keyAt origin n).index = n.toUInt32 := by
  induction n with
  | zero => exact h
  | succ n ih =>
    rw [keyAt_succ]
    change (keyAt origin n).index + 1 = _
    rw [ih]
    exact (UInt32.ofNat_add n 1).symm

def seedAt (origin : ChainKey) (n : Nat) : MessageKeyPB :=
  ⟨n.toUInt32, [], [], [], (keyAt origin n).baseMaterial messageKeySeed⟩

lemma messageKeyGenToProto_keyAt (h : origin.index = 0) (n : Nat) :
    messageKeyGenToProto (keyAt origin n).messageKeys = .ok (seedAt origin n) := by
  rw [ChainKey.messageKeys, keyAt_index h]
  rfl

lemma messageKeyGenFromProto_seedAt (h : origin.index = 0) (n : Nat) :
    messageKeyGenFromProto (seedAt origin n) = .ok (keyAt origin n).messageKeys := by
  have hlen : (seedAt origin n).seed.length = 32 := hmacSHA256_length _ _
  rw [messageKeyGenFromProto, if_pos (by rw [hlen]; decide), ChainKey.messageKeys, keyAt_index h]
  rfl

/-- A stored chain follows a line: its chain key is that of the next index, and its cache holds the seeds of
the cached indices, newest first. -/
structure Follows (l : Line Bytes ChainKey) (c : Chain) : Prop where
  key : c.senderRatchetKey = l.key
  origin : l.origin.index = 0
  chainKey : c.chainKey = some (chainKeyToProto (keyAt l.origin l.window.next))
  messageKeys : c.messageKeys = l.window.cache.reverse.map (seedAt l.origin)

def Chain.atWindow (c : Chain) (origin : ChainKey) (w : Window) : Chain :=
  { c with chainKey := some (chainKeyToProto (keyAt origin w.next)),
           messageKeys := w.cache.reverse.map (seedAt origin) }

variable {l : Line Bytes ChainKey} {c : Chain}

lemma Follows.atWindow (h : Follows l c) (w : Window) :
    Follows { l with window := w } (c.atWindow l.origin w) := ⟨h.key, h.origin, rfl, rfl⟩

lemma follows_new {k : PublicKey} (h : origin.index = 0) :
    Follows ⟨k.serialize, origin, .start 0⟩ ⟨k.serialize, [], some (chainKeyToProto origin), []⟩ :=
  ⟨rfl, h, rfl, rfl⟩

lemma map_skip (w : Window) :
    ((seedAt origin w.next :: w.cache.reverse.map (seedAt origin)).take maxMessageKeys) =
      (w.skip maxMessageKeys).cache.reverse.map (seedAt origin) := by
  rw [Window.skip_cache, reverse_keepLast, List.reverse_append, List.map_take]
  rfl

lemma follows_split {s : SessionState} {k : PublicKey} {a b : List Chain} {c : Chain}
    (h : List.Forall₂ Follows t s.receiverChains) (hat : s.At k a c b) :
    ∃ ta l tb, t = ta ++ l :: tb ∧ List.Forall₂ Follows ta a ∧ Follows l c ∧ List.Forall₂ Follows tb b := by
  rw [hat.chains] at h
  obtain ⟨l, tb, hl, hb, hsplit⟩ := List.forall₂_cons_right_iff.mp (List.forall₂_drop_append _ _ _ h)
  refine ⟨t.take a.length, l, tb, ?_, List.forall₂_take_append _ _ _ h, hl, hb⟩
  rw [← hsplit, List.take_append_drop]

lemma follows_keys {chains : List Chain} (h : List.Forall₂ Follows t chains) :
    t.map (·.key) = chains.map (·.senderRatchetKey) := by
  induction h with
  | nil => rfl
  | cons hl _ ih => rw [List.map_cons, List.map_cons, hl.key, ih]

lemma follows_mem {chains : List Chain} (h : List.Forall₂ Follows t chains) :
    ∀ c ∈ chains, ∃ l ∈ t, Follows l c := by
  induction h with
  | nil => exact fun _ hc => absurd hc List.not_mem_nil
  | @cons l c t chains hl _ ih =>
    intro x hx
    rcases List.mem_cons.mp hx with rfl | hx
    · exact ⟨l, List.mem_cons_self, hl⟩
    · obtain ⟨l', hl', hfollows⟩ := ih x hx
      exact ⟨l', List.mem_cons_of_mem _ hl', hfollows⟩

/-! ## Looking a counter up -/

variable {s : SessionState} {k : PublicKey} {a b : List Chain} {counter : UInt32}

lemma skipMessageKeys_at (h0 : origin.index = 0) (n : Nat) : ∀ (w : Window)
    (s : SessionState) (c : Chain), s.At k a c b → c.messageKeys = w.cache.reverse.map (seedAt origin) →
    w.next + n = counter.toNat →
    skipMessageKeys k counter n (keyAt origin w.next) s = .ok (keyAt origin (w.next + n), s.withChains
      (a ++ { c with messageKeys := (w.skipMany maxMessageKeys n).cache.reverse.map (seedAt origin) } :: b)) := by
  induction n with
  | zero =>
    intro w s c hat hkeys _
    rw [skipMessageKeys, Window.skipMany, ← hkeys, hat.withChains_self]
    rfl
  | succ n ih =>
    intro w s c hat hkeys hn
    have hcounter := counter.toNat_lt
    have hlt : (keyAt origin w.next).index < counter := by
      rw [keyAt_index h0, UInt32.lt_iff_toNat_lt, toNat_toUInt32 (by omega)]
      omega
    have hcache := hat.cacheMessageKeys (messageKeyGenToProto_keyAt h0 w.next)
    rw [hkeys, map_skip] at hcache
    rw [skipMessageKeys, if_pos hlt, hcache, ok_bind, ← keyAt_succ]
    have hnext : (w.skip maxMessageKeys).next + n = counter.toNat := by
      rw [Window.skip_next]
      omega
    generalize hcache' : (w.skip maxMessageKeys).cache.reverse.map (seedAt origin) = keys
    have hat' : (s.withChains (a ++ { c with messageKeys := keys } :: b)).At k a { c with messageKeys := keys } b :=
      hat.withChains rfl
    have hrest := ih (w.skip maxMessageKeys) _ _ hat' hcache'.symm hnext
    rw [Window.skip_next] at hrest
    rw [hrest, SessionState.withChains_withChains, Window.skipMany, Nat.add_right_comm, Nat.add_assoc]

lemma getOrCreateMessageKeys_behind (hat : s.At k a c b) (hf : Follows l c)
    (hs : l.window.Sound maxMessageKeys 0) (hsmall : l.window.next < 2 ^ 32)
    (hlt : counter.toNat < l.window.next) :
    getOrCreateMessageKeys s k (keyAt l.origin l.window.next) counter =
      if counter.toNat ∈ l.window.cache then
        .ok ((keyAt l.origin counter.toNat).messageKeys,
          s.withChains (a ++ c.atWindow l.origin (l.window.useCached counter.toNat) :: b))
      else .error (.duplicateMessage counter) := by
  have hindex : (keyAt l.origin l.window.next).index > counter := by
    rw [keyAt_index hf.origin, gt_iff_lt, UInt32.lt_iff_toNat_lt, toNat_toUInt32 hsmall]
    exact hlt
  have hp : ∀ j ∈ l.window.cache.reverse,
      ((seedAt l.origin j).index == counter) = (j == counter.toNat) := by
    intro j hj
    have hj := (hs.cache_lt j (List.mem_reverse.mp hj)).trans hsmall
    rw [Bool.eq_iff_iff, beq_iff_eq, beq_iff_eq, ← UInt32.toNat_inj]
    change j.toUInt32.toNat = _ ↔ _
    rw [toNat_toUInt32 hj]
  rw [getOrCreateMessageKeys, if_pos hindex, hat.takeMessageKeys, hf.messageKeys, find?_indexed hp,
    eraseP_indexed hp, ← reverse_erase hs.cache_nodup]
  by_cases hmem : counter.toNat ∈ l.window.cache
  · rw [if_pos (List.mem_reverse.mpr hmem), if_pos hmem]
    simp only [messageKeyGenFromProto_seedAt hf.origin]
    rw [Chain.atWindow, show (l.window.useCached counter.toNat).next = l.window.next from rfl, ← hf.chainKey]
    rfl
  · rw [if_neg fun h => hmem (List.mem_reverse.mp h), if_neg hmem]
    rfl

lemma getOrCreateMessageKeys_ahead (hat : s.At k a c b) (hf : Follows l c) (hsmall : l.window.next < 2 ^ 32)
    (hle : l.window.next ≤ counter.toNat) :
    getOrCreateMessageKeys s k (keyAt l.origin l.window.next) counter =
      if 25000 < counter.toNat - l.window.next then
        .error (.invalidMessage (.tooFar (counter - l.window.next.toUInt32)))
      else .ok ((keyAt l.origin counter.toNat).messageKeys, s.withChains
        (a ++ c.atWindow l.origin (l.window.skipMany maxMessageKeys (counter.toNat - l.window.next)).useNext
          :: b)) := by
  have hindex : ¬ (keyAt l.origin l.window.next).index > counter := by
    rw [keyAt_index hf.origin, gt_iff_lt, UInt32.lt_iff_toNat_lt, toNat_toUInt32 hsmall]
    omega
  have hjump : (counter - l.window.next.toUInt32).toNat = counter.toNat - l.window.next := by
    rw [UInt32.toNat_sub_of_le, toNat_toUInt32 hsmall]
    rw [UInt32.le_iff_toNat_le, toNat_toUInt32 hsmall]
    exact hle
  have hfar : counter - (keyAt l.origin l.window.next).index > maxForwardJumps ↔
      25000 < counter.toNat - l.window.next := by
    rw [keyAt_index hf.origin, gt_iff_lt, UInt32.lt_iff_toNat_lt, hjump]
    exact Iff.rfl
  rw [getOrCreateMessageKeys, if_neg hindex]
  by_cases hj : 25000 < counter.toNat - l.window.next
  · rw [if_pos (hfar.mpr hj), if_pos hj, keyAt_index hf.origin]
  · have hskip := skipMessageKeys_at hf.origin _ l.window s c hat hf.messageKeys (Nat.add_sub_cancel' hle)
    have hnext : (l.window.skipMany maxMessageKeys (counter.toNat - l.window.next)).useNext.next =
        counter.toNat + 1 := by
      change (l.window.skipMany maxMessageKeys (counter.toNat - l.window.next)).next + 1 = _
      rw [Window.skipMany_next, Nat.add_sub_cancel' hle]
    have hcache : (l.window.skipMany maxMessageKeys (counter.toNat - l.window.next)).useNext.cache =
        (l.window.skipMany maxMessageKeys (counter.toNat - l.window.next)).cache := rfl
    rw [if_neg fun h => hj (hfar.mp h), if_neg hj, keyAt_index hf.origin, hjump, hskip, ok_bind,
      Nat.add_sub_cancel' hle, Chain.atWindow, hnext, hcache, keyAt_succ]
    generalize (l.window.skipMany maxMessageKeys (counter.toNat - l.window.next)).cache = cache
    -- the chain key is set on the chain whose cache the loop filled
    have hat' : (s.withChains (a ++ { c with messageKeys := cache.reverse.map (seedAt l.origin) } :: b)).At k a
        { c with messageKeys := cache.reverse.map (seedAt l.origin) } b := hat.withChains rfl
    simp only [hat'.setReceiverChainKey]
    rfl

lemma getOrCreateMessageKeys_inv {s' : SessionState} {gen : MessageKeyGenerator} (hat : s.At k a c b)
    (hf : Follows l c) (hs : l.window.Sound maxMessageKeys 0) (hsmall : l.window.next < 2 ^ 32)
    (h : getOrCreateMessageKeys s k (keyAt l.origin l.window.next) counter = .ok (gen, s')) :
    ∃ w, l.window.use maxMessageKeys counter.toNat = some w ∧ gen = (keyAt l.origin counter.toNat).messageKeys ∧
      s' = s.withChains (a ++ c.atWindow l.origin w :: b) := by
  rw [Window.use]
  by_cases hlt : counter.toNat < l.window.next
  · rw [getOrCreateMessageKeys_behind hat hf hs hsmall hlt] at h
    rw [if_pos hlt]
    by_cases hmem : counter.toNat ∈ l.window.cache
    · rw [if_pos hmem] at h ⊢
      cases h
      exact ⟨_, rfl, rfl, rfl⟩
    · rw [if_neg hmem] at h
      cases h
  · rw [getOrCreateMessageKeys_ahead hat hf hsmall (not_lt.mp hlt)] at h
    rw [if_neg hlt]
    split at h
    · cases h
    · cases h
      exact ⟨_, rfl, rfl, rfl⟩

end

end LibSignal.Session
