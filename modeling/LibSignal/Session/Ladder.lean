import LibSignal.Session.History

/-!
# The chains of a conversation

The parties of a session take turns in making chains, each from the root key of the one before and an
agreement of the two key pairs (`Rung.Next`).
-/

namespace LibSignal.Session
open Chunked (Bytes)
open Crypto Curve Lib Protocol Ratchet
open Spqr (StateCodec)

/-- A chain: the key pair that names it, the root key after it, and its first chain key. -/
structure Rung where
  pair : KeyPair
  root : RootKey
  origin : ChainKey

def Rung.opening (r : Rung) : Bytes × ChainKey := (r.pair.publicKey.serialize, r.origin)

def opensBefore (L : List Rung) : Nat → List (Bytes × ChainKey)
  | 0 => []
  | 1 => (L[0]?).toList.map Rung.opening
  | n + 2 => opensBefore L n ++ (L[n + 1]?).toList.map Rung.opening

variable {L : List Rung} {n : Nat} {r r' : Rung}

lemma opensBefore_succ (h : L[n]? = some r) : ∃ l, opensBefore L (n + 1) = l ++ [r.opening] := by
  cases n with
  | zero => exact ⟨[], by rw [opensBefore, h]; rfl⟩
  | succ n => exact ⟨opensBefore L n, by rw [opensBefore, h]; rfl⟩

lemma mem_opensBefore {e : Bytes × ChainKey} (h : e ∈ opensBefore L n) :
    ∃ i r, i < n ∧ L[i]? = some r ∧ e = r.opening := by
  -- the chain that comes last, or one before it
  have hlast : ∀ {n : Nat}, e ∈ (L[n]?).toList.map Rung.opening → ∃ r, L[n]? = some r ∧ e = r.opening := by
    intro n he
    obtain ⟨r, hr, rfl⟩ := List.mem_map.mp he
    exact ⟨r, Option.mem_toList.mp hr, rfl⟩
  induction n using opensBefore.induct with
  | case1 => cases h
  | case2 =>
    obtain ⟨r, hr, he⟩ := hlast h
    exact ⟨0, r, Nat.zero_lt_one, hr, he⟩
  | case3 n ih =>
    rcases List.mem_append.mp h with h | h
    · obtain ⟨i, r, hi, hr, he⟩ := ih h
      exact ⟨i, r, by omega, hr, he⟩
    · obtain ⟨r, hr, he⟩ := hlast h
      exact ⟨n + 1, r, by omega, hr, he⟩

lemma opensBefore_append (L' : List Rung) (h : n ≤ L.length) : opensBefore (L ++ L') n = opensBefore L n := by
  induction n using opensBefore.induct with
  | case1 => rfl
  | case2 => rw [opensBefore, opensBefore, List.getElem?_append_left (by omega)]
  | case3 n ih => rw [opensBefore, opensBefore, ih (by omega), List.getElem?_append_left (by omega)]

section
variable [Hash]

/-! ## The state of a party -/

/-- A counter that a receiver chain has keys for: a cached one, or one at most 25000 ahead. -/
def Chain.Reaches (c : Chain) (counter : UInt32) : Prop :=
  (∃ e ∈ c.messageKeys, e.index = counter) ∨
    ∃ ck, c.chainKey = some ck ∧ ck.index ≤ counter ∧ counter.toNat - ck.index.toNat ≤ 25000

structure Seat (L : List Rung) (n : Nat) (r : Rung) (count : Nat) (log : List ChainEvent) (s : SessionState) :
    Prop where
  rung : L[n]? = some r
  root : s.rootKey = r.root.key
  sender : s.senderChain = some ⟨r.pair.publicKey.serialize, r.pair.privateKey.data,
    some (chainKeyToProto (keyAt r.origin count)), []⟩
  chains : Represented log s
  small : Small log
  opened : openings log = opensBefore L n

variable {count : Nat} {log : List ChainEvent} {s s' : SessionState} {ck : ChainKey} {counter : UInt32}

namespace Seat

lemma lt (h : Seat L n r count log s) : n < L.length := (List.getElem?_eq_some_iff.mp h.rung).1

lemma append (h : Seat L n r count log s) (L' : List Rung) : Seat (L ++ L') n r count log s :=
  ⟨(List.getElem?_append_left h.lt).trans h.rung, h.root, h.sender, h.chains, h.small,
    h.opened.trans (opensBefore_append L' h.lt.le).symm⟩

lemma congr (h : Seat L n r count log s) (hroot : s'.rootKey = s.rootKey) (hsender : s'.senderChain = s.senderChain)
    (hchains : s'.receiverChains = s.receiverChains) : Seat L n r count log s' := by
  obtain ⟨t, hrun, hfollows⟩ := h.chains
  exact ⟨h.rung, hroot.trans h.root, hsender.trans h.sender, ⟨t, hrun, hchains ▸ hfollows⟩, h.small, h.opened⟩

lemma senderChainKey (h : Seat L n r count log s) : s.senderChainKey = .ok (keyAt r.origin count) := by
  rw [SessionState.senderChainKey, h.sender]
  exact chainKeyFromProto_toProto _

lemma senderRatchetKey (h : Seat L n r count log s) : s.senderRatchetKey = .ok r.pair.publicKey := by
  rw [SessionState.senderRatchetKey, h.sender]
  simp only [deserializePublicKey_serialize]
  rfl

lemma sent (h : Seat L n r count log s) (hset : s.setSenderChainKey (keyAt r.origin count).next = .ok s') :
    Seat L n r (count + 1) log s' := by
  obtain ⟨sc, hsc, rfl⟩ := SessionState.setSenderChainKey_inv hset
  cases hsc.symm.trans h.sender
  exact ⟨h.rung, h.root, by rw [keyAt_succ], h.chains, h.small, h.opened⟩

lemma opening_mem (h : Seat L n r count log s) {t : List (Line Bytes ChainKey)} {l : Line Bytes ChainKey}
    (hrun : LineRun maxReceiverChains maxMessageKeys log t) (hl : l ∈ t) :
    ∃ i r', i < n ∧ L[i]? = some r' ∧ (l.key, l.origin) = r'.opening := by
  have hmem : (l.key, l.origin) ∈ keepLast maxReceiverChains (openings log) :=
    hrun.lines_eq ▸ List.mem_map_of_mem (f := fun l : Line Bytes ChainKey => (l.key, l.origin)) hl
  exact mem_opensBefore (h.opened ▸ (keepLast_sublist _ _).mem hmem)

lemma holds_last (h : Seat L (n + 1) r count log s) (hr' : L[n]? = some r') :
    ∃ c ∈ s.receiverChains, c.senderRatchetKey = r'.pair.publicKey.serialize := by
  obtain ⟨t, hrun, hfollows⟩ := h.chains
  obtain ⟨l, hl⟩ := opensBefore_succ hr'
  have hlines := hrun.lines_eq
  rw [h.opened, hl, keepLast_concat (by decide)] at hlines
  have hmem : r'.opening ∈ t.map fun l => (l.key, l.origin) := by
    rw [hlines]
    exact List.mem_append_right _ (List.mem_singleton.mpr rfl)
  obtain ⟨l, hl, heq⟩ := List.mem_map.mp hmem
  have hkey : l.key ∈ s.receiverChains.map (·.senderRatchetKey) := follows_keys hfollows ▸ List.mem_map_of_mem hl
  obtain ⟨c, hc, hck⟩ := List.mem_map.mp hkey
  exact ⟨c, hc, hck.trans (Prod.mk.inj heq).1⟩

lemma receiverChainKey_of_mem (h : Seat L n r count log s) {k : PublicKey} {c : Chain} (hc : c ∈ s.receiverChains)
    (hkey : c.senderRatchetKey = k.serialize) : ∃ ck, s.receiverChainKey k = .ok (some ck) := by
  obtain ⟨t, _, hfollows⟩ := h.chains
  have hfind : (s.receiverChains.find? (·.senderRatchetKey == k.serialize)).isSome :=
    List.find?_isSome.mpr ⟨c, hc, beq_iff_eq.mpr hkey⟩
  obtain ⟨c', hc'⟩ := Option.isSome_iff_exists.mp hfind
  obtain ⟨a, b, hat⟩ := SessionState.at_of_find? hc'
  obtain ⟨l, _, hl⟩ := follows_mem hfollows c' (List.mem_of_find?_eq_some hc')
  exact ⟨_, hat.receiverChainKey hl.chainKey⟩

lemma used (h : Seat L n r count log s) {k : PublicKey} {gen : MessageKeyGenerator}
    (hck : s.receiverChainKey k = .ok (some ck)) (hgen : getOrCreateMessageKeys s k ck counter = .ok (gen, s'))
    (hcounter : counter.toNat < 2 ^ 32 - 1) : Seat L n r count (log ++ [.used k.serialize counter.toNat]) s' := by
  have hframe := getOrCreateMessageKeys_frame hgen
  refine ⟨h.rung, ?_, ?_, represented_used h.chains h.small hck hgen, ?_, ?_⟩
  · rw [hframe]
    exact h.root
  · rw [hframe]
    exact h.sender
  · intro k' i hi
    rcases List.mem_append.mp hi with hi | hi
    · exact h.small k' i hi
    · cases List.mem_singleton.mp hi
      exact hcounter
  · rw [openings_append, h.opened]
    exact List.append_nil _

lemma reaches (h : Seat L n r count log s) {k : PublicKey} {c : Chain}
    (hfind : s.receiverChains.find? (·.senderRatchetKey == k.serialize) = some c) (hreach : c.Reaches counter) :
    ∃ ck gen s', s.receiverChainKey k = .ok (some ck) ∧ getOrCreateMessageKeys s k ck counter = .ok (gen, s') := by
  obtain ⟨t, hrun, hfollows⟩ := h.chains
  obtain ⟨a, b, hat⟩ := SessionState.at_of_find? hfind
  obtain ⟨ta, l, tb, rfl, _, hl, _⟩ := follows_split hfollows hat
  have hmem : l ∈ ta ++ l :: tb := List.mem_append_right _ List.mem_cons_self
  have hsound := hrun.sound l hmem
  have hnext : l.window.next < 2 ^ 32 := by
    have hle := hrun.next_le h.small l hmem
    omega
  suffices hgen : ∃ gen s', getOrCreateMessageKeys s k (keyAt l.origin l.window.next) counter = .ok (gen, s') by
    obtain ⟨gen, s', hgen⟩ := hgen
    exact ⟨_, gen, s', hat.receiverChainKey hl.chainKey, hgen⟩
  rcases hreach with ⟨e, he, rfl⟩ | ⟨pb, hpb, hle, hnear⟩
  · -- a cached index is below the next one
    rw [hl.messageKeys] at he
    obtain ⟨i, hi, rfl⟩ := List.mem_map.mp he
    have hi := List.mem_reverse.mp hi
    have hlt := hsound.cache_lt i hi
    have hindex : (seedAt l.origin i).index.toNat = i := toNat_toUInt32 (hlt.trans hnext)
    rw [getOrCreateMessageKeys_behind hat hl hsound hnext (by omega), hindex, if_pos hi]
    exact ⟨_, _, rfl⟩
  · rw [hl.chainKey] at hpb
    cases hpb
    have hindex : (chainKeyToProto (keyAt l.origin l.window.next)).index = l.window.next.toUInt32 :=
      keyAt_index hl.origin _
    rw [hindex, UInt32.le_iff_toNat_le, toNat_toUInt32 hnext] at hle
    rw [hindex, toNat_toUInt32 hnext] at hnear
    rw [getOrCreateMessageKeys_ahead hat hl hnext hle, if_neg (by omega)]
    exact ⟨_, _, rfl⟩

end Seat

/-! ## The ladder -/

variable [X25519]

/-- A chain is made with its own key pair, from the root key of the chain before. -/
def Rung.Next (r r' : Rung) : Prop :=
  r.root.createChain r.pair.publicKey r'.pair.privateKey = .ok (r'.root, r'.origin)

lemma Rung.Next.mirror (h : r.Next r') (hX : X25519.Commutes) (hr : r.pair.Valid) (hr' : r'.pair.Valid) :
    r.root.createChain r'.pair.publicKey r.pair.privateKey = .ok (r'.root, r'.origin) := by
  obtain ⟨shared, hours, htheirs⟩ := hX.agreement r.pair r'.pair hr hr'
  rw [Rung.Next, RootKey.createChain_ok _ htheirs] at h
  rw [RootKey.createChain_ok _ hours, h]

lemma Rung.exists_next (hX : X25519.Commutes) (hr : r.pair.Valid) {pair : KeyPair} (hpair : pair.Valid) :
    ∃ r' : Rung, r'.pair = pair ∧ r.Next r' ∧ r'.origin.index = 0 := by
  obtain ⟨shared, _, htheirs⟩ := hX.agreement r.pair pair hr hpair
  exact ⟨⟨pair, r.root.stepRoot shared, r.root.stepChain shared⟩, rfl, RootKey.createChain_ok _ htheirs, rfl⟩

structure Ladder (L : List Rung) : Prop where
  valid : ∀ r ∈ L, r.pair.Valid
  origin : ∀ r ∈ L, r.origin.index = 0
  linked : L.IsChain Rung.Next
  distinct : (L.map (·.pair.publicKey)).Nodup

lemma Ladder.next (h : Ladder L) (hr : L[n]? = some r) (hr' : L[n + 1]? = some r') : r.Next r' := by
  obtain ⟨hlt, rfl⟩ := List.getElem?_eq_some_iff.mp hr'
  obtain ⟨_, rfl⟩ := List.getElem?_eq_some_iff.mp hr
  exact List.isChain_iff_getElem.mp h.linked n hlt

lemma Ladder.unique (h : Ladder L) {i j : Nat} (hr : L[i]? = some r) (hr' : L[j]? = some r')
    (hkey : r.pair.publicKey = r'.pair.publicKey) : i = j ∧ r = r' := by
  have hlt : i < (L.map (·.pair.publicKey)).length := by
    rw [List.length_map]
    exact (List.getElem?_eq_some_iff.mp hr).1
  have hsame : i = j := by
    refine (List.getElem?_inj hlt h.distinct).mp ?_
    rw [List.getElem?_map, List.getElem?_map, hr, hr', Option.map_some, Option.map_some, hkey]
  subst hsame
  exact ⟨rfl, Option.some.inj (hr.symm.trans hr')⟩

lemma Ladder.concat (h : Ladder L) (hlen : L.length = n + 1) (hr : L[n]? = some r) (hnext : r.Next r')
    (hvalid : r'.pair.Valid) (horigin : r'.origin.index = 0)
    (hnew : r'.pair.publicKey ∉ L.map (·.pair.publicKey)) : Ladder (L ++ [r']) := by
  refine ⟨?_, ?_, ?_, ?_⟩
  · exact List.forall_mem_append.mpr ⟨h.valid, List.forall_mem_singleton.mpr hvalid⟩
  · exact List.forall_mem_append.mpr ⟨h.origin, List.forall_mem_singleton.mpr horigin⟩
  · refine h.linked.append (List.isChain_singleton _) fun x hx y hy => ?_
    cases hy
    rw [List.getLast?_eq_getElem?, hlen, Nat.add_sub_cancel, hr] at hx
    cases hx
    exact hnext
  · rw [List.map_append, List.map_singleton]
    exact List.nodup_append.mpr ⟨h.distinct, List.nodup_singleton _, fun a ha b hb => by
      rw [List.mem_singleton.mp hb]
      exact fun heq => hnew (heq ▸ ha)⟩

namespace Seat

lemma origin_eq (h : Seat L n r count log s) (hL : Ladder L) {t : List (Line Bytes ChainKey)}
    {l : Line Bytes ChainKey} (hrun : LineRun maxReceiverChains maxMessageKeys log t) (hl : l ∈ t) {i : Nat}
    (hr' : L[i]? = some r') (hkey : l.key = r'.pair.publicKey.serialize) : l.origin = r'.origin := by
  obtain ⟨j, r1, _, hr1, heq⟩ := h.opening_mem hrun hl
  obtain ⟨hkey1, horigin⟩ := Prod.mk.inj heq
  have hsame := PublicKey.serialize_injective (hkey1.symm.trans hkey)
  rw [horigin, (hL.unique hr1 hr' hsame).2]

lemma receiverChainKey_new (h : Seat L n r count log s) (hL : Ladder L) (hr' : L[n + 1]? = some r') :
    s.receiverChainKey r'.pair.publicKey = .ok none := by
  obtain ⟨t, hrun, hfollows⟩ := h.chains
  have hnone : s.receiverChains.find? (·.senderRatchetKey == r'.pair.publicKey.serialize) = none := by
    refine List.find?_eq_none.mpr fun c hc hkey => ?_
    obtain ⟨l, hl, hlc⟩ := follows_mem hfollows c hc
    obtain ⟨j, r1, hj, hr1, heq⟩ := h.opening_mem hrun hl
    have hkey1 : r1.pair.publicKey.serialize = r'.pair.publicKey.serialize :=
      (Prod.mk.inj heq).1.symm.trans (hlc.key.symm.trans (beq_iff_eq.mp hkey))
    have hsame := (hL.unique hr1 hr' (PublicKey.serialize_injective hkey1)).1
    omega
  rw [SessionState.receiverChainKey, hnone]

lemma generator_eq (h : Seat L n r count log s) (hL : Ladder L) {i : Nat} (hr' : L[i]? = some r')
    {gen : MessageKeyGenerator} (hck : s.receiverChainKey r'.pair.publicKey = .ok (some ck))
    (hgen : getOrCreateMessageKeys s r'.pair.publicKey ck counter = .ok (gen, s')) :
    gen = (keyAt r'.origin counter.toNat).messageKeys := by
  obtain ⟨t, hrun, hfollows⟩ := h.chains
  obtain ⟨ta, l, tb, _, _, _, _, rfl, _, _, _, _, hkey, _, hgen, _⟩ := used_inv hrun hfollows h.small hck hgen
  rw [hgen, h.origin_eq hL hrun (List.mem_append_right _ List.mem_cons_self) hr' hkey]

lemma opens (h : Seat L n r count log s) (hL : Ladder L) (hX : X25519.Commutes) (hlen : L.length = n + 2)
    (hr' : L[n + 1]? = some r') {rng : Reader} {pair : KeyPair} (hpair : generateKeyPair rng = .ok pair)
    (hnew : pair.publicKey ∉ L.map (·.pair.publicKey)) :
    ∃ r'' s1, dhRatchetStep s r'.pair.publicKey rng = .ok (r'.origin, s1) ∧ r''.pair = pair ∧
      Ladder (L ++ [r'']) ∧ Seat (L ++ [r'']) (n + 2) r'' 0
        (log ++ [.opened r'.pair.publicKey.serialize r'.origin]) s1 ∧
      s1.parties = s.parties ∧ s1.pqRatchetState = s.pqRatchetState := by
  have hvalid := hL.valid r' (List.mem_of_getElem? hr')
  obtain ⟨r'', rfl, hnext, horigin⟩ := Rung.exists_next hX hvalid (generateKeyPair_valid hpair)
  have hreceiver := (hL.next h.rung hr').mirror hX (hL.valid r (List.mem_of_getElem? h.rung)) hvalid
  have hnone := h.receiverChainKey_new hL hr'
  have hcur : s.senderRatchetKeyPair = .ok r.pair := by
    rw [SessionState.senderRatchetKeyPair, h.sender]
    simp only [deserializePublicKey_serialize, deserializePrivateKey_data]
    rfl
  obtain ⟨⟨ck, s1⟩, hstep⟩ : ∃ out, dhRatchetStep s r'.pair.publicKey rng = .ok out := by
    simp only [dhRatchetStep, h.root, newRootKey_key, hcur, hreceiver, hpair, ok_bind, mapError_ok]
    rw [show r'.root.createChain r'.pair.publicKey r''.pair.privateKey = _ from hnext]
    exact ⟨_, rfl⟩
  obtain ⟨rk, our, root, new, root', chain', hrk, hour, hcreate, hnewpair, hcreate', counter, hs1⟩ :=
    dhRatchetStep_inv hstep
  rw [h.root, newRootKey_key] at hrk
  cases hrk
  cases hour.symm.trans hcur
  cases hreceiver.symm.trans hcreate
  cases hnewpair.symm.trans hpair
  cases (show r'.root.createChain r'.pair.publicKey r''.pair.privateKey = _ from hnext).symm.trans hcreate'
  refine ⟨r'', s1, hstep, rfl, hL.concat hlen hr' hnext (generateKeyPair_valid hpair) horigin hnew, ?_, ?_, ?_⟩
  · refine ⟨?_, ?_, ?_, represented_opened h.chains hnone hstep, h.small.opened _ _, ?_⟩
    · rw [List.getElem?_append_right hlen.le, hlen, Nat.sub_self]
      rfl
    · rw [hs1]
      rfl
    · rw [hs1]
      rfl
    · rw [openings_append, h.opened, opensBefore, opensBefore_append _ (by omega),
        List.getElem?_append_left (by omega), hr']
      rfl
  · rw [hs1]
    rfl
  · rw [hs1]
    rfl

end Seat

end

end LibSignal.Session
