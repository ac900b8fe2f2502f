import LibSignal.Session.Counters
import LibSignal.Session.Roster
import LibSignal.Spqr.SendLog

/-!
# What one side sends to a peer

A `Ledger` follows the calls for one peer: it numbers the sessions in the order they are made and notes the
messages that `Encrypt` returns, each with the number of its session, and the ratchet keys that are generated
for sending chains.
-/

namespace LibSignal.Session
open Address (ProtocolAddress)
open Chunked (Bytes)
open Crypto Curve Lib Lib.Op Proto Protocol
open Ratchet
open Spqr (StateCodec LoggedSends carried)

structure Numbers (a : Archive) (ro : Roster Nat) : Prop where
  current : a.current = ro.current.map (·.1)
  stored : a.stored.map (·.1) = ro.archived.map (·.1)

namespace Numbers
variable {a : Archive} {ro : Roster Nat}

lemma held (h : Numbers a ro) : a.held = ro.labels := by
  rw [Archive.held, h.current, h.stored, Roster.labels, Roster.entries, List.map_append, Option.toList_map]

lemma length (h : Numbers a ro) : a.stored.length = ro.archived.length := by
  rw [← List.length_map (·.1), h.stored, List.length_map]

lemma archive (h : Numbers a ro) : Numbers (a.archive archivedStatesMaxLength) ro.archive := by
  have hcur := h.current
  rw [Archive.archive, Roster.archive]
  cases hro : ro.current with
  | none =>
    rw [hro, Option.map_none] at hcur
    simp only [hcur]
    exact h
  | some e =>
    rw [hro, Option.map_some] at hcur
    simp only [hcur]
    refine ⟨rfl, ?_⟩
    rw [List.map_cons, List.map_cons, Archive.kept, h.length]
    refine congrArg (List.cons e.1) ?_
    split
    · rw [List.map_dropLast, h.stored, List.dropLast_eq_take, List.length_map, List.map_take]
    · exact h.stored

lemma promote (h : Numbers a ro) (s : SessionState) :
    Numbers (a.promote archivedStatesMaxLength) (ro.promote a.count s) :=
  ⟨rfl, h.archive.stored⟩

lemma promoteOld (h : Numbers a ro) {i : Nat} {e : Nat × SessionState} (he : ro.archived[i]? = some e) :
    Numbers (a.promoteOld archivedStatesMaxLength i) (ro.promoteOld i) := by
  have hget : (a.stored[i]?).map (·.1) = some e.1 := by
    rw [← List.getElem?_map, h.stored, List.getElem?_map, he]
    rfl
  obtain ⟨p, hp, hpe⟩ := Option.map_eq_some_iff.mp hget
  have hrest : Numbers { a with stored := a.stored.eraseIdx i } { ro with archived := ro.archived.eraseIdx i } := by
    refine ⟨h.current, ?_⟩
    dsimp only
    rw [← List.eraseIdx_map, h.stored, List.eraseIdx_map]
  rw [Archive.promoteOld_some hp, Roster.promoteOld, he]
  exact ⟨congrArg some hpe, hrest.archive.stored⟩

end Numbers

lemma held_nodup {a : Archive} (h : a.Sound archivedStatesMaxLength) : a.held.Nodup :=
  List.Nodup.of_append_left (h.complete.nodup_iff.mpr List.nodup_range)

/-! ## The ledger of a run -/

inductive PeerCall where
  | processPreKeyBundle (rng : Readers) (coins : Bytes) (now : UInt64) (bundle : PreKeyBundle)
  | encrypt (plaintext : Bytes) (now : Int) (rng : Reader)
  | decrypt (m : SignalMessage) (rng : Reader)
  | decryptPreKey (m : PreKeySignalMessage) (rng : Reader)

structure Ledger where
  sessions : Archive
  sent : List (Option Nat × SignalMessage)
  keys : List PublicKey

namespace Ledger

def empty : Ledger := ⟨.start, [], []⟩

section
variable [X25519]

def generatedKey (rng : Reader) : List PublicKey :=
  match generateKeyPair rng with
  | .ok pair => [pair.publicKey]
  | .error _ => []

def steppedKey (s : Option SessionState) (m : SignalMessage) (rng : Reader) : List PublicKey :=
  if s.any (·.holdsChain m.senderRatchet.serialize) then [] else generatedKey rng

def started (L : Ledger) (rng : Reader) : Ledger :=
  { L with sessions := L.sessions.promote archivedStatesMaxLength, keys := L.keys ++ generatedKey rng }

def returned (L : Ledger) (out : Option SignalMessage × Option PreKeySignalMessage) : Ledger :=
  { L with sent := L.sent ++ (signalOf out).toList.map fun m => (L.sessions.current, m) }

def received (L : Ledger) (s : Option SessionState) (m : SignalMessage) (rng : Reader) : Ledger :=
  { L with keys := L.keys ++ steppedKey s m rng }

def opened [Wire SessionState] (L : Ledger) (r : SessionRecord) (m : PreKeySignalMessage) (rng : Reader) : Ledger :=
  if r.current.any (matchesPreKey m) then L.received r.current m.message rng
  else
    match findArchived m r.previousSessions 0 with
    | .ok (some i) =>
      received { L with sessions := L.sessions.promoteOld archivedStatesMaxLength i }
        ((r.previousSessions[i]?).bind unmarshal) m.message rng
    | _ => L.started rng

end

def counters (L : Ledger) (k : PublicKey) : List Nat :=
  (L.sent.filter (·.2.senderRatchet = k)).map (·.2.counter.toNat)

def pairs (L : Ledger) (n : Option Nat) : List (Option (UInt64 × UInt64)) :=
  (L.sent.filter (·.1 = n)).map fun e => carried e.2.pqRatchet

/-- Fewer than `2^32` messages on each sending chain: for every ratchet key, and for every session and epoch of
its post-quantum ratchet. -/
def Few (L : Ledger) : Prop :=
  (∀ k, (L.counters k).length < 2 ^ 32) ∧ ∀ n ep, (L.pairs n).countP (fun p => p.map Prod.fst = some ep) < 2 ^ 32

end Ledger

section
variable [Hash] [X25519] [IncrementalKem] [StateCodec] [Aes] [Kem.Kyber1024] [EdwardsPoints] [XEdDSA]
  [Wire SessionState] [Wire PreKeyRecordStructure] [Wire SignedPreKeyRecordStructure] [Wire RecordStructure]
  [Wire SignalMessagePB] [Wire PreKeySignalMessagePB]
variable {σ : Type}

def PeerCall.exec (host : Host σ) (view : σ → ProtocolAddress → Option SessionRecord) (remote : ProtocolAddress)
    (c : PeerCall) (x : Ledger × σ) : Ledger × σ :=
  match c with
  | processPreKeyBundle rng coins now bundle =>
    match Session.processPreKeyBundle host rng coins now remote bundle x.2 with
    | (.ok _, t') => (x.1.started (rng 1), t')
    | (.error _, t') => (x.1, t')
  | encrypt plaintext now rng =>
    match Session.encrypt host plaintext remote now rng x.2 with
    | (.ok out, t') => (x.1.returned out, t')
    | (.error _, t') => (x.1, t')
  | decrypt m rng =>
    match Session.decrypt host m remote rng x.2 with
    | (.ok _, t') => (x.1.received ((view x.2 remote).bind (·.current)) m rng, t')
    | (.error _, t') => (x.1, t')
  | decryptPreKey m rng =>
    match Session.decryptPreKey host m remote rng x.2 with
    | (.ok _, t') => (x.1.opened ((view x.2 remote).getD .fresh) m rng, t')
    | (.error _, t') => (x.1, t')

def keepLedger (host : Host σ) (view : σ → ProtocolAddress → Option SessionRecord) (remote : ProtocolAddress)
    (calls : List PeerCall) (t : σ) : Ledger × σ :=
  calls.foldl (fun x c => c.exec host view remote x) (.empty, t)

end

/-! ## The record of a ledger -/

structure Ledger.Sound (L : Ledger) : Prop where
  sessions : L.sessions.Sound archivedStatesMaxLength
  known : ∀ e ∈ L.sent, e.2.senderRatchet ∈ L.keys
  numbered : ∀ e ∈ L.sent, ∃ n < L.sessions.count, e.1 = some n
  counters : ∀ k, L.counters k = List.range (L.counters k).length
  pairs : ∀ n, (L.pairs n).Nodup
  carries : ∀ e ∈ L.sent, (carried e.2.pqRatchet).isSome

namespace Ledger

lemma empty_sound : empty.Sound where
  sessions := Archive.sound_start _
  known := fun _ h => absurd h List.not_mem_nil
  numbered := fun _ h => absurd h List.not_mem_nil
  counters := fun _ => rfl
  pairs := fun _ => List.nodup_nil
  carries := fun _ h => absurd h List.not_mem_nil

lemma Sound.withSessions {L : Ledger} {a : Archive} (h : L.Sound) (ha : a.Sound archivedStatesMaxLength)
    (hcount : L.sessions.count ≤ a.count) : Sound { L with sessions := a } where
  sessions := ha
  known := h.known
  numbered := fun e he => (h.numbered e he).imp fun _ hn => ⟨hn.1.trans_le hcount, hn.2⟩
  counters := h.counters
  pairs := h.pairs
  carries := h.carries

lemma Sound.withKeys {L : Ledger} (h : L.Sound) (ks : List PublicKey) : Sound { L with keys := L.keys ++ ks } where
  sessions := h.sessions
  known := fun e he => List.mem_append_left _ (h.known e he)
  numbered := h.numbered
  counters := h.counters
  pairs := h.pairs
  carries := h.carries

lemma Sound.counters_nil {L : Ledger} {k : PublicKey} (h : L.Sound) (hk : k ∉ L.keys) : L.counters k = [] := by
  rw [Ledger.counters, List.map_eq_nil_iff, List.filter_eq_nil_iff]
  intro e he hkey
  rw [decide_eq_true_eq] at hkey
  exact hk (hkey ▸ h.known e he)

lemma Sound.pairs_nil {L : Ledger} {n : Nat} (h : L.Sound) (hn : L.sessions.count ≤ n) : L.pairs (some n) = [] := by
  rw [Ledger.pairs, List.map_eq_nil_iff, List.filter_eq_nil_iff]
  intro e he hlabel
  obtain ⟨n', hlt, hn'⟩ := h.numbered e he
  rw [decide_eq_true_eq, hn', Option.some.injEq] at hlabel
  omega

end Ledger

def sentPair (e : Spqr.SentKey) : Option (UInt64 × UInt64) := some (e.epoch + 1, e.index.toUInt64)

lemma sentPair_inj {e e' : Spqr.SentKey} (h : sentPair e = sentPair e') : (e.epoch, e.index) = (e'.epoch, e'.index) := by
  obtain ⟨hepoch, hindex⟩ := Prod.mk.inj (Option.some.inj h)
  rw [add_left_injective 1 hepoch, UInt32.toUInt64_inj.mp hindex]

namespace Ledger

section
variable {L : Ledger} {n : Nat} {m : SignalMessage}

def addSent (L : Ledger) (n : Nat) (m : SignalMessage) : Ledger := { L with sent := L.sent ++ [(some n, m)] }

lemma counters_addSent (k : PublicKey) : (L.addSent n m).counters k =
    L.counters k ++ if m.senderRatchet = k then [m.counter.toNat] else [] := by
  rw [counters, addSent, List.filter_append, List.map_append, List.filter_singleton, counters]
  by_cases hk : m.senderRatchet = k <;> simp [hk]

lemma pairs_addSent (l : Option Nat) : (L.addSent n m).pairs l =
    L.pairs l ++ if some n = l then [carried m.pqRatchet] else [] := by
  rw [pairs, addSent, List.filter_append, List.map_append, List.filter_singleton, pairs]
  by_cases hl : some n = l <;> simp [hl]

lemma Sound.addSent (h : L.Sound) (hkey : m.senderRatchet ∈ L.keys) (hn : n < L.sessions.count)
    (hcounter : m.counter.toNat = (L.counters m.senderRatchet).length)
    (hpairs : ((L.addSent n m).pairs (some n)).Nodup) (hcarried : (carried m.pqRatchet).isSome) :
    (L.addSent n m).Sound where
  sessions := h.sessions
  known := by
    intro e he
    rcases List.mem_append.mp he with he | he
    · exact h.known e he
    · rw [List.mem_singleton.mp he]
      exact hkey
  numbered := by
    intro e he
    rcases List.mem_append.mp he with he | he
    · exact h.numbered e he
    · rw [List.mem_singleton.mp he]
      exact ⟨n, hn, rfl⟩
  counters := by
    intro k
    rw [counters_addSent]
    split
    · rename_i hk
      subst hk
      rw [List.length_append, List.length_singleton, List.range_succ, hcounter, ← h.counters]
    · rw [List.append_nil]
      exact h.counters k
  pairs := by
    intro l
    by_cases hl : some n = l
    · subst hl
      exact hpairs
    · rw [pairs_addSent, if_neg hl, List.append_nil]
      exact h.pairs l
  carries := by
    intro e he
    rcases List.mem_append.mp he with he | he
    · exact h.carries e he
    · rw [List.mem_singleton.mp he]
      exact hcarried

end

lemma nodup_sentPair {log : List Spqr.SentKey} (h : (log.map fun e => (e.epoch, e.index)).Nodup) :
    (log.map sentPair).Nodup := by
  rw [List.Nodup, List.pairwise_map] at h ⊢
  exact h.imp fun hne heq => hne (sentPair_inj heq)

lemma countP_sentPair (log : List Spqr.SentKey) (ep : UInt64) :
    (log.map sentPair).countP (fun p => p.map Prod.fst = some (ep + 1)) = Spqr.Chain.sends log ep := by
  rw [List.countP_map, Spqr.Chain.sends]
  refine List.countP_congr fun e _ => ?_
  simp only [Function.comp_apply, sentPair, Option.map_some, Option.some.injEq, decide_eq_true_eq]
  exact add_left_inj 1

end Ledger

section
variable [Hash] [StateCodec]

/-- A session stands where the ledger says: its sending chain behind the messages with its key, and its
post-quantum ratchet behind the pairs of its number. -/
structure Ledger.Entered (L : Ledger) (e : Nat × SessionState) : Prop where
  chain : ∃ pk ck, e.2.senderRatchetKey = .ok pk ∧ e.2.senderChainKey = .ok ck ∧ pk ∈ L.keys ∧
    ck.index.toNat = (L.counters pk).length
  ratchet : ∃ log, LoggedSends log e.2.pqRatchetState ∧ L.pairs (some e.1) = log.map sentPair

structure Ledger.Books (L : Ledger) (ro : Roster Nat) : Prop where
  sound : L.Sound
  numbers : Numbers L.sessions ro
  entered : ∀ e ∈ ro.settled, L.Entered e
  distinct : (ro.settled.map (·.2.senderRatchetKey)).Nodup

/-- A record is the one that a ledger is about. -/
def Booked [Wire SessionState] (L : Ledger) (r : SessionRecord) : Prop := ∃ ro, r = ro.record ∧ L.Books ro

namespace Ledger
variable {L L' : Ledger} {e : Nat × SessionState} {ro ro' : Roster Nat}

lemma Entered.settle (h : L.Entered e) : L.Entered (Roster.settle e) := ⟨h.chain, h.ratchet⟩

lemma Entered.mono (h : L.Entered e) (hkeys : L.keys ⊆ L'.keys) (hsent : L'.sent = L.sent) : L'.Entered e := by
  obtain ⟨pk, ck, hpk, hck, hmem, hindex⟩ := h.chain
  refine ⟨⟨pk, ck, hpk, hck, hkeys hmem, ?_⟩, ?_⟩
  · rw [counters, hsent]
    exact hindex
  · rw [pairs, hsent]
    exact h.ratchet

lemma empty_books : empty.Books .empty :=
  ⟨empty_sound, ⟨rfl, rfl⟩, fun _ h => absurd h List.not_mem_nil, List.nodup_nil⟩

lemma Books.length_le (h : L.Books ro) : ro.archived.length ≤ archivedStatesMaxLength := by
  rw [← h.numbers.length]
  exact h.sound.sessions.length_le

lemma Books.labels_nodup (h : L.Books ro) : ro.labels.Nodup := by
  rw [← h.numbers.held]
  exact held_nodup h.sound.sessions

lemma Books.label_lt (h : L.Books ro) (he : e ∈ ro.entries) : e.1 < L.sessions.count := by
  refine lt_count h.sound.sessions ?_
  rw [h.numbers.held]
  exact List.mem_map_of_mem he

variable {s : SessionState}

lemma Books.current {n : Nat} (h : L.Books ro) (hcur : ro.current = some (n, s)) : L.Entered (n, s) := by
  have hentered := h.entered (Roster.settle (n, s)) (by rw [Roster.settled_of_current hcur]; exact List.mem_cons_self)
  exact ⟨hentered.chain, hentered.ratchet⟩

lemma Books.promoteOld (h : L.Books ro) {i : Nat} (he : ro.archived[i]? = some e) :
    Books { L with sessions := L.sessions.promoteOld archivedStatesMaxLength i } (ro.promoteOld i) := by
  have hperm := Roster.promoteOld_settled he h.length_le
  have hnumbers := h.numbers.promoteOld he
  refine ⟨h.sound.withSessions (h.sound.sessions.promoteOld (by decide) i) ?_, hnumbers, fun e' he' => ?_, ?_⟩
  · rw [Archive.promoteOld]
    split
    · exact le_refl _
    · change _ ≤ (Archive.archive archivedStatesMaxLength _).count
      rw [Archive.archive_count]
  · exact (h.entered e' (hperm.mem_iff.mp he')).mono (List.Subset.refl _) rfl
  · exact (hperm.map _).nodup_iff.mpr h.distinct

lemma Books.promote (h : L.Books ro) {pk : PublicKey} {ck : ChainKey} (hpk : s.senderRatchetKey = .ok pk)
    (hck : s.senderChainKey = .ok ck) (hindex : ck.index = 0) (hratchet : LoggedSends [] s.pqRatchetState)
    (hnew : pk ∉ L.keys) :
    Books { L with sessions := L.sessions.promote archivedStatesMaxLength, keys := L.keys ++ [pk] }
      (ro.promote L.sessions.count s) := by
  have hsub := Roster.archive_settled ro
  have hsound := (h.sound.withKeys [pk]).withSessions (h.sound.sessions.promote (by decide)) ?_
  refine ⟨hsound, h.numbers.promote s, fun e he => ?_, ?_⟩
  · rw [Roster.promote_settled] at he
    rcases List.mem_cons.mp he with rfl | he
    · refine ⟨⟨pk, ck, hpk, hck, List.mem_append_right _ (List.mem_singleton.mpr rfl), ?_⟩, [], hratchet, ?_⟩
      · rw [hindex]
        exact (congrArg List.length (h.sound.counters_nil hnew)).symm
      · exact h.sound.pairs_nil (le_refl _)
    · exact (h.entered e (hsub.mem he)).mono (List.subset_append_left _ _) rfl
  · rw [Roster.promote_settled, List.map_cons, List.nodup_cons]
    refine ⟨fun hmem => ?_, h.distinct.sublist (hsub.map _)⟩
    obtain ⟨e, he, hsame⟩ := List.mem_map.mp hmem
    obtain ⟨pk', _, hpk', _, hmem', _⟩ := (h.entered e (hsub.mem he)).chain
    cases (hpk'.symm.trans hsame).trans hpk
    exact hnew hmem'
  · exact Nat.le_succ _

lemma Books.withCurrent (h : L.Books ro) {n : Nat} {s' : SessionState} (hcur : ro.current = some (n, s))
    (hsound : L'.Sound) (hsessions : L'.sessions = L.sessions) (hothers : ∀ e ∈ ro.archived.map Roster.settle,
      L.Entered e → e.1 ≠ n → e.2.senderRatchetKey ≠ s.senderRatchetKey → L'.Entered e)
    (hentered : L'.Entered (n, s')) (hkey : ∀ e ∈ ro.archived.map Roster.settle, L.Entered e →
      e.2.senderRatchetKey ≠ s.senderRatchetKey → e.2.senderRatchetKey ≠ s'.senderRatchetKey) :
    L'.Books { ro with current := some (n, s') } := by
  have hsettled := Roster.settled_of_current hcur
  have hsettled' : Roster.settled { ro with current := some (n, s') } =
      Roster.settle (n, s') :: ro.archived.map Roster.settle := Roster.settled_of_current rfl
  have hentries := h.entered
  have hdistinct := h.distinct
  have hlabels := h.labels_nodup
  rw [← Roster.settled_map_fst] at hlabels
  rw [hsettled, List.map_cons, List.nodup_cons] at hdistinct hlabels
  rw [hsettled] at hentries
  have hne : ∀ e ∈ ro.archived.map Roster.settle, e.1 ≠ n ∧ e.2.senderRatchetKey ≠ s.senderRatchetKey :=
    fun e he => ⟨fun hn => hlabels.1 (List.mem_map.mpr ⟨e, he, hn⟩),
      fun hk => hdistinct.1 (List.mem_map.mpr ⟨e, he, hk⟩)⟩
  refine ⟨hsound, ⟨?_, ?_⟩, ?_, ?_⟩
  · rw [hsessions, h.numbers.current, hcur]
    rfl
  · rw [hsessions]
    exact h.numbers.stored
  · rw [hsettled']
    refine List.forall_mem_cons.mpr ⟨hentered.settle, fun e he => ?_⟩
    exact hothers e he (hentries e (List.mem_cons_of_mem _ he)) (hne e he).1 (hne e he).2
  · rw [hsettled', List.map_cons, List.nodup_cons]
    refine ⟨fun hmem => ?_, hdistinct.2⟩
    obtain ⟨e, he, hsame⟩ := List.mem_map.mp hmem
    exact hkey e he (hentries e (List.mem_cons_of_mem _ he)) (hne e he).2 hsame

end Ledger

end

section
variable [Hash] [X25519] [IncrementalKem] [StateCodec] [Aes]

namespace Ledger
variable {L : Ledger} {ro : Roster Nat} {n : Nat} {s s' : SessionState} {m : SignalMessage} {rng : Reader}
  {ptext : Bytes}

lemma Books.receive (h : L.Books ro) (hcur : ro.current = some (n, s))
    (hdec : decryptWithState s m rng = .ok (ptext, s')) (hkeys : (L.received (some s) m rng).keys.Nodup) :
    (L.received (some s) m rng).Books { ro with current := some (n, s') } := by
  have hsub : L.keys ⊆ (L.received (some s) m rng).keys := List.subset_append_left _ _
  have hentered := h.current hcur
  obtain ⟨res, hrecv, hstate⟩ := decryptWithState_ratchet hdec
  obtain ⟨log, hlog, hpairs⟩ := hentered.ratchet
  have hlog' : LoggedSends log s'.pqRatchetState := by
    rw [hstate]
    exact LoggedSends.recv hlog hrecv
  have hothers : ∀ e ∈ ro.archived.map Roster.settle, L.Entered e → e.1 ≠ n →
      e.2.senderRatchetKey ≠ s.senderRatchetKey → (L.received (some s) m rng).Entered e :=
    fun e _ he _ _ => he.mono hsub rfl
  rcases decryptWithState_sender hdec with ⟨_, hchain⟩ | ⟨hheld, pair, ck, hpair, hpk, hck, hindex⟩
  · obtain ⟨pk, ck, hpk, hck, hmem, hcount⟩ := hentered.chain
    have hkey : s'.senderRatchetKey = s.senderRatchetKey := by
      rw [SessionState.senderRatchetKey, hchain, SessionState.senderRatchetKey]
    have hchainKey : s'.senderChainKey = s.senderChainKey := by
      rw [SessionState.senderChainKey, hchain, SessionState.senderChainKey]
    refine h.withCurrent hcur (h.sound.withKeys _) rfl hothers ⟨?_, log, hlog', hpairs⟩ fun e _ _ hne => ?_
    · exact ⟨pk, ck, hkey.trans hpk, hchainKey.trans hck, hsub hmem, hcount⟩
    · rw [hkey]
      exact hne
  · -- the new key is generated after all that are noted
    have hstepped : (L.received (some s) m rng).keys = L.keys ++ [pair.publicKey] := by
      rw [received, steppedKey, Option.any_some, hheld, if_neg Bool.false_ne_true, generatedKey, hpair]
    have hnew : pair.publicKey ∉ L.keys := by
      rw [hstepped] at hkeys
      exact fun hmem => (List.nodup_append.mp hkeys).2.2 _ hmem _ (List.mem_singleton.mpr rfl) rfl
    refine h.withCurrent hcur (h.sound.withKeys _) rfl hothers ⟨⟨_, ck, hpk, hck, ?_, ?_⟩, log, hlog', hpairs⟩
      fun e _ he _ hsame => ?_
    · rw [hstepped]
      exact List.mem_append_right _ (List.mem_singleton.mpr rfl)
    · rw [hindex]
      exact (congrArg List.length (h.sound.counters_nil hnew)).symm
    · obtain ⟨pk', _, hpk', _, hmem', _⟩ := he.chain
      cases (hpk'.symm.trans hsame).trans hpk
      exact hnew hmem'

end Ledger

end

section
variable [Hash] [StateCodec]

namespace Ledger
variable {L : Ledger} {ro : Roster Nat} {n : Nat} {s s' : SessionState} {m : SignalMessage}

lemma Entered.addSent {e : Nat × SessionState} (h : L.Entered e) (hkey : e.2.senderRatchetKey ≠ .ok m.senderRatchet)
    (hnumber : e.1 ≠ n) : (L.addSent n m).Entered e := by
  obtain ⟨pk, ck, hpk, hck, hmem, hcount⟩ := h.chain
  refine ⟨⟨pk, ck, hpk, hck, hmem, ?_⟩, ?_⟩
  · rw [counters_addSent, if_neg (fun heq : m.senderRatchet = pk => hkey (heq ▸ hpk)), List.append_nil]
    exact hcount
  · rw [pairs_addSent, if_neg fun heq => hnumber (Option.some.inj heq).symm, List.append_nil]
    exact h.ratchet

variable [X25519] [IncrementalKem] [Aes] [Wire SignalMessagePB] [Wire PreKeySignalMessagePB]

lemma Books.send (h : L.Books ro) (hcur : ro.current = some (n, s))
    {out : Option SignalMessage × Option PreKeySignalMessage} (hstep : SessionStep s (.sent out) s')
    (hm : signalOf out = some m) (hfew : (L.addSent n m).Few) :
    (L.addSent n m).Books { ro with current := some (n, s') } := by
  obtain ⟨m', ck, hm', hck, hcounter, hpk, hpk', hck'⟩ := hstep.sent_inv
  cases hm.symm.trans hm'
  obtain ⟨rng, res, hsend, hmsg, hstate⟩ := hstep.sent_ratchet hm
  have hentered := h.current hcur
  obtain ⟨pk, ck0, hpk0, hck0, hmem, hcount⟩ := hentered.chain
  cases hpk0.symm.trans hpk
  cases hck0.symm.trans hck
  obtain ⟨log, hlog, hpairs⟩ := hentered.ratchet
  obtain ⟨e, hcarried, hnext⟩ := LoggedSends.send hlog hsend
  have hpairs' : (L.addSent n m).pairs (some n) = (log ++ [e]).map sentPair := by
    rw [pairs_addSent, if_pos rfl, hpairs, hmsg, hcarried, List.map_append]
    rfl
  have hlog' : LoggedSends (log ++ [e]) s'.pqRatchetState := by
    have hcount := hfew.2 (some n) (e.epoch + 1)
    rw [hpairs', countP_sentPair, Spqr.Chain.sends, List.countP_append] at hcount
    rw [hstate]
    refine hnext ?_
    simpa [Spqr.Chain.sends] using hcount
  have hlength : (L.counters m.senderRatchet).length + 1 < 2 ^ 32 := by
    have hlen := hfew.1 m.senderRatchet
    rw [counters_addSent, if_pos rfl, List.length_append] at hlen
    exact hlen
  have hindex : ck.next.index.toNat = ck.index.toNat + 1 := by
    refine next_index_toNat ?_
    rw [lastCounter]
    omega
  have hnodup : ((L.addSent n m).pairs (some n)).Nodup := by
    rw [hpairs']
    exact nodup_sentPair (LoggedSends.nodup hlog')
  have hsound : (L.addSent n m).Sound := by
    refine h.sound.addSent hmem (h.label_lt (Roster.mem_entries_current hcur)) (by rw [hcounter, hcount]) hnodup ?_
    rw [hmsg, hcarried]
    rfl
  refine h.withCurrent hcur hsound rfl (fun e' _ he' hn hk => he'.addSent (hpk ▸ hk) hn) ⟨?_, _, hlog', hpairs'⟩ ?_
  · refine ⟨_, ck.next, hpk', hck', hmem, ?_⟩
    rw [hindex, hcount, counters_addSent, if_pos rfl, List.length_append]
    rfl
  · intro e' _ _ hk
    rw [hpk', ← hpk]
    exact hk

end Ledger

end

end LibSignal.Session
