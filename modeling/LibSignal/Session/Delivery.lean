import LibSignal.Session.Ladder
import LibSignal.Session.Ledger
import LibSignal.Spqr.Agreement

/-!
# Delivery in a conversation

Two sessions that began with one handshake exchange messages: each party writes, and receives what the peer
has written, in any order, more than once or not at all.
-/

namespace LibSignal.Session
open Chunked (Bytes)
open Crypto Curve Lib Proto Protocol Ratchet
open Spqr (StateCodec Net Setup Joint switchDirection switchDirection_ne switchDirection_switchDirection)

section
variable [Hash] [Aes] [Wire SignalMessagePB]

/-- A message that was written with the keys of a chain and of the post-quantum ratchet. -/
structure Letter (sender receiver : PublicKey) (r : Rung) (x : Spqr.Sent) (m : SignalMessage) (ptext : Bytes) :
    Prop where
  small : m.counter.toNat < 2 ^ 32 - 1
  built : ∃ mk ctext previous,
    (keyAt r.origin m.counter.toNat).messageKeys.generateKeys (x.key.getD []) = .ok mk ∧
    encryptCBC ptext mk.cipherKey mk.iv = .ok ctext ∧
    newSignalMessage signalMessageCurrentVersion mk.macKey r.pair.publicKey m.counter previous ctext sender receiver
      x.msg [] = .ok m

variable {sender receiver : PublicKey} {r : Rung} {x : Spqr.Sent} {m : SignalMessage} {ptext : Bytes}

lemma Letter.fields (h : Letter sender receiver r x m ptext) :
    m.messageVersion = signalMessageCurrentVersion ∧ m.senderRatchet = r.pair.publicKey ∧ m.pqRatchet = x.msg := by
  obtain ⟨mk, ctext, previous, _, _, hnew⟩ := h.built
  obtain ⟨_, hm⟩ := newSignalMessage_inv hnew
  rw [hm]
  exact ⟨rfl, rfl, rfl⟩

variable [X25519] [IncrementalKem] [StateCodec] {s s1 s2 s' : SessionState} {rng : Reader} {ck : ChainKey}

structure Between (ours theirs : PublicKey) (s : SessionState) : Prop where
  version : s.sessionVersion = signalMessageCurrentVersion.toUInt32
  ours : s.localIdentityPublic = ours.serialize
  theirs : s.remoteIdentityPublic = theirs.serialize

omit [Hash] [Aes] [X25519] [IncrementalKem] [StateCodec] [Wire SignalMessagePB] in
lemma Between.of_parties {ours theirs : PublicKey} (h : Between ours theirs s) (hs : s'.parties = s.parties) :
    Between ours theirs s' := by
  simp only [SessionState.parties, Prod.mk.injEq] at hs
  exact ⟨hs.1.trans h.version, hs.2.1.trans h.ours, hs.2.2.1.trans h.theirs⟩

lemma Letter.decrypts (h : Letter sender receiver r x m ptext) (haes : Aes.Inverse)
    (hroot : s.rootKey.length ≠ 0) (hs : Between receiver sender s)
    (hck : getOrCreateChainKey s m.senderRatchet rng = .ok (ck, s1))
    (hgen : getOrCreateMessageKeys s1 m.senderRatchet ck m.counter =
      .ok ((keyAt r.origin m.counter.toNat).messageKeys, s2))
    (hparties : s2.parties = s.parties) {res : Spqr.RecvResult}
    (hrecv : Spqr.recv s2.pqRatchetState m.pqRatchet = .ok res) (hkey : res.key = x.key) :
    decryptWithState s m rng =
      .ok (ptext, { s2 with pqRatchetState := res.state }.clearUnacknowledgedPreKeyMessage) := by
  obtain ⟨mk, ctext, previous, hmk, hctext, hnew⟩ := h.built
  have hmac := verifyMAC_new hnew
  have hs2 := hs.of_parties hparties
  obtain ⟨hversion, -, -⟩ := h.fields
  have hcipher : m.ciphertext = ctext := by
    obtain ⟨_, hm⟩ := newSignalMessage_inv hnew
    rw [hm]
  have hpqr : s2.pqRatchetRecv m.pqRatchet = .ok (x.key.getD [], { s2 with pqRatchetState := res.state }) := by
    rw [SessionState.pqRatchetRecv, hrecv, ← hkey]
    rfl
  rw [decryptWithState, if_neg hroot, if_neg (not_not.mpr (hversion ▸ hs.version.symm))]
  simp only [hck, hgen, hpqr, ok_bind, mapError_ok, hmk, hs2.theirs, hs2.ours, deserializePublicKey_serialize, hmac,
    hcipher, decryptCBC_encryptCBC haes hctext]
  rfl

end

/-! ## The conversation -/

lemma holdsChain_of_find? {s : SessionState} {key : Bytes} {c : Chain}
    (h : s.receiverChains.find? (·.senderRatchetKey == key) = some c) : s.holdsChain key = true := by
  have hkey := List.find?_some h
  exact holdsChain_iff.mpr ⟨c, List.mem_of_find?_eq_some h, beq_iff_eq.mp hkey⟩

lemma wrapPreKey_signal [Wire PreKeySignalMessagePB] {s : SessionState} {senderID : PublicKey}
    {signal : SignalMessage} {now : Int}
    {out : Option SignalMessage × Option PreKeySignalMessage} (h : wrapPreKey s senderID signal now = .ok out) :
    signalOf out = some signal := by
  rw [wrapPreKey] at h
  split at h
  · cases h
    rfl
  · split at h
    · cases h
    · obtain ⟨base, _, h⟩ := bind_eq_ok h
      cases h
      rfl

/-- A session writes a message, as `Encrypt` does with the session that it loads. -/
def Writes [Hash] [IncrementalKem] [StateCodec] [Aes] [Wire SignalMessagePB] [Wire PreKeySignalMessagePB]
    (s : SessionState) (plaintext : Bytes) (m : SignalMessage) (s' : SessionState) : Prop :=
  ∃ senderID receiverID ck rng pqrMsg pqrKey s1 now out, sendingKeys s = .ok (senderID, receiverID, ck) ∧
    s.pqRatchetSend rng = .ok ((pqrMsg, pqrKey), s1) ∧
    buildMessage s1 senderID receiverID ck pqrMsg pqrKey plaintext now = .ok out ∧ signalOf out = some m ∧
    s1.setSenderChainKey ck.next = .ok s'

/-- Two sessions and what their owners have written, with the ratchet keys that were generated. -/
@[ext]
structure Dialogue where
  state : Spqr.Direction → SessionState
  sent : Spqr.Direction → List (SignalMessage × Bytes)
  keys : List PublicKey

namespace Dialogue

def start (a b : SessionState) (keys : List PublicKey) : Dialogue where
  state
    | .a2b => a
    | .b2a => b
  sent := fun _ => []
  keys := keys

def wrote (T : Dialogue) (d : Spqr.Direction) (m : SignalMessage) (ptext : Bytes) (s' : SessionState) : Dialogue :=
  { T with state := Function.update T.state d s', sent := Function.update T.sent d (T.sent d ++ [(m, ptext)]) }

/-- The chain of a message is held, or it is the one that its writer sends on. -/
def Knows (T : Dialogue) (d : Spqr.Direction) (m : SignalMessage) : Prop :=
  (T.state d).holdsChain m.senderRatchet.serialize = true ∨
    (T.state (switchDirection d)).senderRatchetKey = .ok m.senderRatchet

/-- A message that its receiver has keys for: on a chain that it holds, or early enough on the one that the peer
sends on. -/
def Reaches (T : Dialogue) (d : Spqr.Direction) (m : SignalMessage) : Prop :=
  match (T.state d).receiverChains.find? (·.senderRatchetKey == m.senderRatchet.serialize) with
  | some c => c.Reaches m.counter
  | none => (T.state (switchDirection d)).senderRatchetKey = .ok m.senderRatchet ∧ m.counter.toNat ≤ 25000

lemma knows_of_reaches (T : Dialogue) {d : Spqr.Direction} {m : SignalMessage} (h : T.Reaches d m) : T.Knows d m := by
  rw [Reaches] at h
  split at h
  · rename_i c hfind
    exact .inl (holdsChain_of_find? hfind)
  · exact .inr h.1

variable [Hash] [X25519]

def received (T : Dialogue) (d : Spqr.Direction) (m : SignalMessage) (rng : Reader) (s' : SessionState) : Dialogue :=
  { T with state := Function.update T.state d s', keys := T.keys ++ Ledger.steppedKey (some (T.state d)) m rng }

end Dialogue

section
variable [Hash] [X25519] [IncrementalKem] [StateCodec] [Aes] [Wire SignalMessagePB]

/-- What both parties keep: `L` are the chains, `n` the one that each sends on, and `net` the two ends of the
post-quantum ratchet. -/
structure Talking (id : Spqr.Direction → PublicKey) (u : Setup) (T : Dialogue) (L : List Rung)
    (n : Spqr.Direction → Nat) (net : Net) : Prop where
  ladder : Ladder L
  keys : L.map (·.pair.publicKey) = T.keys
  turn : ∃ d, L.length = n d + 1 ∧ n d = n (switchDirection d) + 1
  seat : ∀ d, ∃ r count log, Seat L (n d) r count log (T.state d) ∧ count ≤ (T.sent d).length
  between : ∀ d, Between (id d) (id (switchDirection d)) (T.state d)
  ratchet : ∀ d, net.state d = (T.state d).pqRatchetState
  joint : ∃ t v, Joint u net t v
  letters : ∀ d, List.Forall₂ (fun x e => ∃ r ∈ L, Letter (id d) (id (switchDirection d)) r x e.1 e.2)
    (net.sent d) (T.sent d)

structure Resolved (T : Dialogue) (L : List Rung) (n : Spqr.Direction → Nat) (d : Spqr.Direction) (m : SignalMessage)
    (rng : Reader) (ck : ChainKey) (s1 : SessionState) (L' : List Rung) (k : Nat) : Prop where
  chain : getOrCreateChainKey (T.state d) m.senderRatchet rng = .ok (ck, s1)
  found : s1.receiverChainKey m.senderRatchet = .ok (some ck)
  ladder : Ladder L'
  grown : ∃ X, L' = L ++ X
  keys : L'.map (·.pair.publicKey) = T.keys ++ Ledger.steppedKey (some (T.state d)) m rng
  seat : ∃ r count log, Seat L' k r count log s1 ∧ count ≤ (T.sent d).length
  turn : ∃ e, L'.length = Function.update n d k e + 1 ∧
    Function.update n d k e = Function.update n d k (switchDirection e) + 1
  reaches : T.Reaches d m → ∃ c, s1.receiverChains.find? (·.senderRatchetKey == m.senderRatchet.serialize) = some c ∧
    c.Reaches m.counter
  parties : s1.parties = (T.state d).parties
  ratchet : s1.pqRatchetState = (T.state d).pqRatchetState

variable {id : Spqr.Direction → PublicKey} {u : Setup} {T : Dialogue} {L : List Rung} {n : Spqr.Direction → Nat}
  {net : Net} {d : Spqr.Direction} {m : SignalMessage} {ptext : Bytes} {rng : Reader}

namespace Talking

lemma resolve_known (h : Talking id u T L n net) (hheld : (T.state d).holdsChain m.senderRatchet.serialize = true) :
    ∃ ck, Resolved T L n d m rng ck (T.state d) L (n d) := by
  obtain ⟨r, count, log, hseat, hcount⟩ := h.seat d
  obtain ⟨c, hc, hkey⟩ := holdsChain_iff.mp hheld
  obtain ⟨ck, hck⟩ := hseat.receiverChainKey_of_mem hc hkey
  refine ⟨ck, ?_, hck, h.ladder, ⟨[], (List.append_nil L).symm⟩, ?_, ⟨r, count, log, hseat, hcount⟩, ?_,
    fun hreach => ?_, rfl, rfl⟩
  · rw [getOrCreateChainKey, hck]
    rfl
  · rw [Ledger.steppedKey, Option.any_some, hheld, if_pos rfl, List.append_nil]
    exact h.keys
  · rw [Function.update_eq_self]
    exact h.turn
  · obtain ⟨c', _, hfind, _⟩ := SessionState.receiverChainKey_some hck
    rw [Dialogue.Reaches, hfind] at hreach
    exact ⟨c', hfind, hreach⟩

lemma resolve_new (h : Talking id u T L n net) (hX : X25519.Commutes)
    (hheld : (T.state d).holdsChain m.senderRatchet.serialize = false)
    (hnewest : (T.state (switchDirection d)).senderRatchetKey = .ok m.senderRatchet) {pair : KeyPair}
    (hpair : generateKeyPair rng = .ok pair) (hfresh : (T.keys ++ Ledger.steppedKey (some (T.state d)) m rng).Nodup) :
    ∃ ck s1 L', Resolved T L n d m rng ck s1 L' (n d + 2) := by
  obtain ⟨r, count, log, hseat, _⟩ := h.seat d
  obtain ⟨r', _, _, hseat', _⟩ := h.seat (switchDirection d)
  have hkey : m.senderRatchet = r'.pair.publicKey :=
    Except.ok.inj (hnewest.symm.trans hseat'.senderRatchetKey)
  -- the peer is the one ahead, as the chain before the own one is held
  have hahead : L.length = n d + 2 ∧ n (switchDirection d) = n d + 1 := by
    obtain ⟨e, hlen, hturn⟩ := h.turn
    by_cases he : e = d
    · subst he
      rw [hturn] at hseat
      have hholds := hseat.holds_last hseat'.rung
      rw [← hkey] at hholds
      rw [holdsChain_iff.mpr hholds] at hheld
      cases hheld
    · have he' : e = switchDirection d := by
        cases e <;> cases d <;> first | rfl | exact absurd rfl he
      subst he'
      rw [switchDirection_switchDirection] at hturn
      omega
  obtain ⟨hlen, hn⟩ := hahead
  have hr' := hseat'.rung
  rw [hn] at hr'
  have hstepped : Ledger.steppedKey (some (T.state d)) m rng = [pair.publicKey] := by
    rw [Ledger.steppedKey, Option.any_some, hheld, if_neg Bool.false_ne_true, Ledger.generatedKey, hpair]
  rw [hstepped] at hfresh
  have hnew : pair.publicKey ∉ L.map (·.pair.publicKey) := by
    rw [h.keys]
    exact fun hmem => (List.nodup_append.mp hfresh).2.2 _ hmem _ (List.mem_singleton.mpr rfl) rfl
  obtain ⟨r'', s1, hstep, rfl, hladder, hseat1, hparties, hratchet⟩ := hseat.opens h.ladder hX hlen hr' hpair hnew
  have hnone := hseat.receiverChainKey_new h.ladder hr'
  rw [← hkey] at hnone hstep
  obtain ⟨_, hat, _⟩ := at_concat rfl hnone (dhRatchetStep_chains hseat.chains.length_le hstep).2
  refine ⟨_, s1, _, ?_, hat.receiverChainKey rfl, hladder, ⟨_, rfl⟩, ?_, ⟨r'', 0, _, hseat1, Nat.zero_le _⟩, ?_,
    fun hreach => ⟨_, hat.find?, .inr ⟨_, rfl, ?_⟩⟩, hparties, hratchet⟩
  · rw [getOrCreateChainKey, hnone]
    exact hstep
  · rw [hstepped, List.map_append, h.keys]
    rfl
  · refine ⟨d, ?_, ?_⟩
    · rw [Function.update_self, List.length_append, hlen]
      rfl
    · rw [Function.update_self, Function.update_of_ne (switchDirection_ne d), hn]
  · -- the new chain begins with index 0
    have horigin : r'.origin.index = 0 := h.ladder.origin r' (List.mem_of_getElem? hr')
    have hfind : (T.state d).receiverChains.find? (·.senderRatchetKey == m.senderRatchet.serialize) = none :=
      List.find?_eq_none.mpr fun c hc hck => SessionState.receiverChainKey_none hnone c hc (beq_iff_eq.mp hck)
    rw [Dialogue.Reaches, hfind] at hreach
    change r'.origin.index ≤ _ ∧ _ - r'.origin.index.toNat ≤ _
    rw [horigin]
    exact ⟨UInt32.le_iff_toNat_le.mpr (Nat.zero_le _), hreach.2⟩

lemma resolve (h : Talking id u T L n net) (hX : X25519.Commutes) (hknows : T.Knows d m)
    (hpair : (T.state d).holdsChain m.senderRatchet.serialize = false → ∃ pair, generateKeyPair rng = .ok pair)
    (hfresh : (T.keys ++ Ledger.steppedKey (some (T.state d)) m rng).Nodup) :
    ∃ ck s1 L' k, Resolved T L n d m rng ck s1 L' k := by
  cases hheld : (T.state d).holdsChain m.senderRatchet.serialize with
  | true =>
    obtain ⟨ck, hres⟩ := h.resolve_known hheld
    exact ⟨ck, _, L, n d, hres⟩
  | false =>
    obtain ⟨pair, hpair⟩ := hpair hheld
    obtain ⟨ck, s1, L', hres⟩ := h.resolve_new hX hheld (hknows.resolve_left (by rw [hheld]; exact Bool.false_ne_true))
      hpair hfresh
    exact ⟨ck, s1, L', _, hres⟩

lemma letter_at (h : Talking id u T L n net) {k : Nat} (hm : (T.sent d)[k]? = some (m, ptext)) :
    ∃ x, (net.sent d)[k]? = some x ∧ ∃ r ∈ L, Letter (id d) (id (switchDirection d)) r x m ptext := by
  obtain ⟨hlen, hget⟩ := List.forall₂_iff_get.mp (h.letters d)
  obtain ⟨hk, hm⟩ := List.getElem?_eq_some_iff.mp hm
  obtain ⟨r, hr, hletter⟩ := hget k (hlen ▸ hk) hk
  rw [List.get_eq_getElem, List.get_eq_getElem, hm] at hletter
  exact ⟨_, List.getElem?_eq_getElem _, r, hr, hletter⟩

lemma opens (h : Talking id u T L n net) (haes : Aes.Inverse) (hK : IncrementalKem.Correct)
    (hmin : u.minVersion d = Spqr.v0 ∨ u.minVersion d = Spqr.v1)
    (hsmall : (Spqr.epochOf (T.state d).pqRatchetState).toNat + 1 < 2 ^ 64) {k j : Nat}
    (hm : (T.sent (switchDirection d))[k]? = some (m, ptext)) {ck : ChainKey} {s1 s2 : SessionState} {L' : List Rung}
    (hr : Resolved T L n d m rng ck s1 L' j) {gen : MessageKeyGenerator}
    (hgen : getOrCreateMessageKeys s1 m.senderRatchet ck m.counter = .ok (gen, s2)) {res : Spqr.RecvResult}
    (hrecv : Spqr.recv (T.state d).pqRatchetState m.pqRatchet = .ok res) :
    ∃ s' n' net', decryptWithState (T.state d) m rng = .ok (ptext, s') ∧
      Talking id u (T.received d m rng s') L' n' net' := by
  obtain ⟨x, hx, r, hrung, hletter⟩ := h.letter_at hm
  rw [switchDirection_switchDirection] at hletter
  obtain ⟨X, rfl⟩ := hr.grown
  obtain ⟨r1, count, log, hseat, hcount⟩ := hr.seat
  obtain ⟨i, hrung⟩ := List.getElem?_of_mem (List.mem_append_left X hrung)
  obtain ⟨_, hratchet, hpq⟩ := hletter.fields
  have hfound := hr.found
  have hframe := getOrCreateMessageKeys_frame hgen
  have hused := hseat.used hfound hgen hletter.small
  have hgen' := hgen
  rw [hratchet] at hgen' hfound
  rw [hseat.generator_eq hr.ladder hrung hfound hgen'] at hgen
  -- the two ends of the post-quantum ratchet have one key
  obtain ⟨t, v, hj⟩ := h.joint
  obtain ⟨p, idx, hl⟩ := (hj.side_switch d).log k x hx
  rw [← h.ratchet d, hj.epochOf_eq] at hsmall
  rw [← h.ratchet d, hpq] at hrecv
  obtain ⟨hkey, w, _, _, hj', _⟩ := hj.recv hK hmin hsmall hx hl hrecv
  have hparties : s2.parties = (T.state d).parties := by
    rw [hframe]
    exact hr.parties
  have hstate : s2.pqRatchetState = net.state d := by
    rw [hframe, h.ratchet d]
    exact hr.ratchet
  obtain ⟨r0, _, _, hseat0, _⟩ := h.seat d
  have hroot : (T.state d).rootKey.length ≠ 0 := by
    rw [hseat0.root, r0.root.length_key]
    decide
  have hdec := hletter.decrypts haes hroot (h.between d) hr.chain hgen hparties
    (by rw [hstate, hpq]; exact hrecv) hkey
  have hne := switchDirection_ne d
  refine ⟨_, Function.update n d j, net.afterRecv d k res, hdec, hr.ladder, hr.keys, hr.turn, ?_, ?_, ?_,
    ⟨t, _, hj'⟩, ?_⟩
  · refine Spqr.forall_direction d ?_ ?_
    · simp only [Dialogue.received, Function.update_self]
      exact ⟨r1, count, _, hused.congr rfl rfl rfl, hcount⟩
    · simp only [Dialogue.received, Function.update_of_ne hne]
      obtain ⟨r2, count2, log2, hseat2, hcount2⟩ := h.seat (switchDirection d)
      exact ⟨r2, count2, log2, hseat2.append X, hcount2⟩
  · refine Spqr.forall_direction d ?_ ?_
    · simp only [Dialogue.received, Function.update_self]
      exact (h.between d).of_parties hparties
    · simp only [Dialogue.received, Function.update_of_ne hne]
      exact h.between _
  · refine Spqr.forall_direction d ?_ ?_
    · simp only [Dialogue.received, Spqr.Net.afterRecv, Function.update_self]
      rfl
    · simp only [Dialogue.received, Spqr.Net.afterRecv, Function.update_of_ne hne]
      exact h.ratchet _
  · exact fun e => (h.letters e).imp fun _ _ => Exists.imp fun _ => And.imp_left (List.mem_append_left X)

lemma receive (h : Talking id u T L n net) (hX : X25519.Commutes) (haes : Aes.Inverse) (hK : IncrementalKem.Correct)
    (hmin : u.minVersion d = Spqr.v0 ∨ u.minVersion d = Spqr.v1)
    (hsmall : (Spqr.epochOf (T.state d).pqRatchetState).toNat + 1 < 2 ^ 64) {k : Nat}
    (hm : (T.sent (switchDirection d))[k]? = some (m, ptext)) (hknows : T.Knows d m) {out : Bytes}
    {s' : SessionState} (hdec : decryptWithState (T.state d) m rng = .ok (out, s'))
    (hfresh : (T.keys ++ Ledger.steppedKey (some (T.state d)) m rng).Nodup) :
    out = ptext ∧ ∃ L' n' net', Talking id u (T.received d m rng s') L' n' net' := by
  obtain ⟨_, _, ck, s1, gen, s2, key, s3, mk, _, _, hck, hgen, hpqr, _⟩ := decryptWithState_inv hdec
  obtain ⟨res, hrecv, _⟩ := SessionState.pqRatchetRecv_inv hpqr
  have hpair : (T.state d).holdsChain m.senderRatchet.serialize = false → ∃ pair, generateKeyPair rng = .ok pair := by
    intro hheld
    rcases getOrCreateChainKey_inv hck with ⟨hfound, _⟩ | ⟨_, hstep⟩
    · obtain ⟨c, _, hfind, _⟩ := SessionState.receiverChainKey_some hfound
      cases hheld.symm.trans (holdsChain_of_find? hfind)
    · obtain ⟨_, _, _, new, _, _, _, _, _, hnew, _⟩ := dhRatchetStep_inv hstep
      exact ⟨new, hnew⟩
  obtain ⟨ck', s1', L', j, hr⟩ := h.resolve hX hknows hpair hfresh
  cases hr.chain.symm.trans hck
  rw [getOrCreateMessageKeys_frame hgen] at hrecv
  obtain ⟨s'', n', net', hdec', htalk⟩ := h.opens haes hK hmin hsmall hm hr hgen (by rw [← hr.ratchet]; exact hrecv)
  cases hdec.symm.trans hdec'
  exact ⟨rfl, L', n', net', htalk⟩

lemma delivers (h : Talking id u T L n net) (hX : X25519.Commutes) (haes : Aes.Inverse) (hK : IncrementalKem.Correct)
    (hmin : u.minVersion d = Spqr.v0 ∨ u.minVersion d = Spqr.v1)
    (hsmall : (Spqr.epochOf (T.state d).pqRatchetState).toNat + 1 < 2 ^ 64) {k : Nat}
    (hm : (T.sent (switchDirection d))[k]? = some (m, ptext)) (hreach : T.Reaches d m)
    (hpair : ∃ pair, generateKeyPair rng = .ok pair) {res : Spqr.RecvResult}
    (hrecv : Spqr.recv (T.state d).pqRatchetState m.pqRatchet = .ok res)
    (hfresh : (T.keys ++ Ledger.steppedKey (some (T.state d)) m rng).Nodup) :
    ∃ s', decryptWithState (T.state d) m rng = .ok (ptext, s') := by
  obtain ⟨ck, s1, L', j, hr⟩ := h.resolve hX (T.knows_of_reaches hreach) (fun _ => hpair) hfresh
  obtain ⟨r, count, log, hseat, _⟩ := hr.seat
  obtain ⟨c, hfind, hreach⟩ := hr.reaches hreach
  obtain ⟨ck', gen, s2, hfound, hgen⟩ := hseat.reaches hfind hreach
  cases hfound.symm.trans hr.found
  obtain ⟨s', _, _, hdec, _⟩ := h.opens haes hK hmin hsmall hm hr hgen hrecv
  exact ⟨s', hdec⟩

section
variable [Wire PreKeySignalMessagePB]

lemma written (h : Talking id u T L n net) {s' : SessionState} (hw : Writes (T.state d) ptext m s')
    (hsmall : (T.sent d).length < 2 ^ 31) :
    ∃ r count log rng res, Spqr.send (T.state d).pqRatchetState rng = .ok res ∧ Seat L (n d) r count log s' ∧
      count ≤ (T.sent d).length + 1 ∧ m.counter.toNat ≤ (T.sent d).length ∧ s'.pqRatchetState = res.state ∧
      s'.parties = (T.state d).parties ∧
      Letter (id d) (id (switchDirection d)) r ⟨Spqr.epochOf (T.state d).pqRatchetState, res.msg, res.key⟩ m
        ptext := by
  obtain ⟨senderID, receiverID, ck, rng, pqrMsg, pqrKey, s1, now, out, hkeys, hsend, hbuild, hm, hset⟩ := hw
  obtain ⟨r, count, log, hseat, hcount⟩ := h.seat d
  obtain ⟨hsender, hreceiver, hck⟩ := sendingKeys_inv hkeys
  obtain ⟨res, hres, hout, rfl⟩ := SessionState.pqRatchetSend_inv hsend
  cases hout
  cases hck.symm.trans hseat.senderChainKey
  rw [(h.between d).ours, deserializePublicKey_serialize] at hsender
  rw [(h.between d).theirs, deserializePublicKey_serialize] at hreceiver
  cases hsender
  cases hreceiver
  have hseat1 : Seat L (n d) r count log { T.state d with pqRatchetState := res.state } := hseat.congr rfl rfl rfl
  obtain ⟨_, _, hs'⟩ := SessionState.setSenderChainKey_inv hset
  obtain ⟨mk, ratchetKey, ctext, signal, hmk, hratchet, hctext, hnew, hwrap⟩ := buildMessage_inv hbuild
  cases hratchet.symm.trans hseat1.senderRatchetKey
  cases hm.symm.trans (wrapPreKey_signal hwrap)
  have hversion : (T.state d).sessionVersion.toUInt8 = signalMessageCurrentVersion := by
    rw [(h.between d).version]
    rfl
  obtain ⟨_, hfields⟩ := newSignalMessage_inv hnew
  have hindex : m.counter = (keyAt r.origin count).index := by rw [hfields]
  have hcounter : m.counter.toNat = count := by
    rw [hindex, keyAt_index (h.ladder.origin r (List.mem_of_getElem? hseat.rung))]
    exact toNat_toUInt32 (by omega)
  rw [hversion, ← hindex] at hnew
  refine ⟨r, count + 1, log, rng, res, hres, hseat1.sent hset, Nat.succ_le_succ hcount, hcounter ▸ hcount, by rw [hs'],
    by rw [hs']; rfl, by omega, mk, ctext, _, ?_, hctext, hnew⟩
  rw [hcounter]
  exact hmk

lemma write (h : Talking id u T L n net) {s' : SessionState} (hw : Writes (T.state d) ptext m s')
    (hsmall : (T.sent d).length < 2 ^ 31) : ∃ net', Talking id u (T.wrote d m ptext s') L n net' := by
  obtain ⟨r, count, log, rng, res, hres, hseat, hcount, _, hratchet, hparties, hletter⟩ := h.written hw hsmall
  obtain ⟨t, v, hj⟩ := h.joint
  have hlen : (net.sent d).length = (T.sent d).length := (h.letters d).length_eq
  have hsends : Spqr.sendsIn (v d).s.epoch.toNat (net.sent d) + 1 < 2 ^ 32 := by
    have hle : Spqr.sendsIn (v d).s.epoch.toNat (net.sent d) ≤ (net.sent d).length := List.countP_le_length
    omega
  rw [← h.ratchet d] at hres hletter
  obtain ⟨t', w, _, _, _, _, hj', _⟩ := hj.send hsends hres
  have hne := switchDirection_ne d
  refine ⟨net.afterSend d res, h.ladder, h.keys, h.turn, ?_, ?_, ?_, ⟨t', _, hj'⟩, ?_⟩
  · refine Spqr.forall_direction d ⟨r, count, log, ?_, ?_⟩ ?_
    · simp only [Dialogue.wrote, Function.update_self]
      exact hseat
    · simp only [Dialogue.wrote, Function.update_self, List.length_append]
      exact hcount
    · simp only [Dialogue.wrote, Function.update_of_ne hne]
      exact h.seat _
  · refine Spqr.forall_direction d ?_ ?_
    · simp only [Dialogue.wrote, Function.update_self]
      exact (h.between d).of_parties hparties
    · simp only [Dialogue.wrote, Function.update_of_ne hne]
      exact h.between _
  · refine Spqr.forall_direction d ?_ ?_
    · simp only [Dialogue.wrote, Spqr.Net.afterSend, Function.update_self, hratchet]
    · simp only [Dialogue.wrote, Spqr.Net.afterSend, Function.update_of_ne hne]
      exact h.ratchet _
  · refine Spqr.forall_direction d ?_ ?_
    · simp only [Dialogue.wrote, Spqr.Net.afterSend, Function.update_self]
      exact List.rel_append (h.letters d) (.cons ⟨r, List.mem_of_getElem? hseat.rung, hletter⟩ .nil)
    · simp only [Dialogue.wrote, Spqr.Net.afterSend, Function.update_of_ne hne]
      exact h.letters _

end

end Talking

end

end LibSignal.Session
