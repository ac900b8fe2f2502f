import LibSignal.Session.Envelope
import LibSignal.Session.Mirror
import LibSignal.Session.Wrapping

/-!
# Delivery from end to end

Two parties with in-memory stores: one has processed a bundle of the other.
-/

namespace LibSignal.Session
open Address (ProtocolAddress)
open Chunked (Bytes)
open Crypto Curve Lib Lib.Op Proto Protocol Ratchet Stores
open Spqr (StateCodec Setup switchDirection switchDirection_ne switchDirection_switchDirection forall_direction)

/-! ## The two parties -/

/-- Two parties, the messages that each has encrypted, and the ratchet keys that were generated. -/
structure Peers where
  stores : Spqr.Direction → InMem
  sent : Spqr.Direction → List (Envelope × SignalMessage × Bytes)
  keys : List PublicKey

/-- The pre-key messages of a handshake. -/
def Fits (l : Labels) (m : PreKeySignalMessage) : Prop :=
  m.messageVersion = signalMessageCurrentVersion ∧ Wrapped l false (none, some m)

lemma Fits.identity {l : Labels} {m : PreKeySignalMessage} (h : Fits l m) : m.identityKey = l.identity := by
  obtain ⟨_, _, hout, _, _, _, _, _, hidentity, _⟩ := h
  cases hout
  exact hidentity

lemma Fits.seen_iff {l : Labels} {B : InMem} {m : PreKeySignalMessage} (h : Fits l m) :
    Seen B m ↔ l.base ∈ B.baseKeysSeen (l.kyberPreKeyID, l.signedPreKeyID) := by
  obtain ⟨_, _, hout, hbase, _, hsigned, hkyber, _⟩ := h
  cases hout
  rw [Seen, hkyber, hsigned, hbase, List.any_eq_true]
  constructor
  · rintro ⟨k, hk, hequal⟩
    cases PublicKey.equal_iff.mp hequal
    exact hk
  · exact fun hk => ⟨_, hk, PublicKey.equal_iff.mpr rfl⟩

variable [Wire RecordStructure]

namespace Peers
variable (addr : Spqr.Direction → ProtocolAddress) (P : Peers) (d : Spqr.Direction)

def session : Option SessionState := currentSession (P.stores d) (addr (switchDirection d))

def dialogue (b : SessionState) : Dialogue :=
  ⟨fun d => (P.session addr d).getD b, fun d => (P.sent d).map (·.2), P.keys⟩

lemma dialogue_state (b : SessionState) : (P.dialogue addr b).state d = (P.session addr d).getD b := rfl

def start (a b : InMem) (keys : List PublicKey) : Peers where
  stores
    | .a2b => a
    | .b2a => b
  sent := fun _ => []
  keys := keys

/-- The chain of a message is held by the receiver, or it is the one that the peer sends on. -/
def Knows (m : SignalMessage) : Prop :=
  (P.session addr d).any (·.holdsChain m.senderRatchet.serialize) = true ∨
    ∃ s, P.session addr (switchDirection d) = some s ∧ s.senderRatchetKey = .ok m.senderRatchet

/-- The receiver has keys for a message: on a chain that it holds, or early enough on the one that the peer sends
on. -/
def Reaches (m : SignalMessage) : Prop :=
  match ((P.session addr d).elim [] (·.receiverChains)).find? (·.senderRatchetKey == m.senderRatchet.serialize) with
  | some c => c.Reaches m.counter
  | none => (∃ s, P.session addr (switchDirection d) = some s ∧ s.senderRatchetKey = .ok m.senderRatchet) ∧
      m.counter.toNat ≤ 25000

structure Within [Hash] [StateCodec] : Prop where
  keys : P.keys.Nodup
  sent : ∀ d, (P.sent d).length < 2 ^ 31
  epochs : ∀ d s, P.session addr d = some s → (Spqr.epochOf s.pqRatchetState).toNat + 1 < 2 ^ 64

variable {P d}

lemma session_update {P' : Peers} {t : InMem} (h : P'.stores = Function.update P.stores d t) :
    P'.session addr d = currentSession t (addr (switchDirection d)) ∧
      P'.session addr (switchDirection d) = P.session addr (switchDirection d) := by
  rw [session, session, session, h, Function.update_self, Function.update_of_ne (switchDirection_ne d)]
  exact ⟨rfl, rfl⟩

variable {addr}

lemma dialogue_update {P' : Peers} {t : InMem} {s' b : SessionState} (h : P'.stores = Function.update P.stores d t)
    (ht : currentSession t (addr (switchDirection d)) = some s') :
    (P'.dialogue addr b).state = Function.update (P.dialogue addr b).state d s' := by
  obtain ⟨hself, hother⟩ := session_update addr h
  refine funext (forall_direction d ?_ ?_)
  · rw [dialogue_state, hself, ht, Function.update_self]
    rfl
  · rw [dialogue_state, hother, Function.update_of_ne (switchDirection_ne d)]
    rfl

lemma dialogue_start {A B : InMem} {keys : List PublicKey} {s b : SessionState}
    (hs : currentSession A (addr .b2a) = some s) (hnone : session addr (start A B keys) .b2a = none) :
    dialogue addr (start A B keys) b = .start s b keys := by
  refine Dialogue.ext (funext fun d => ?_) rfl rfl
  cases d with
  | a2b => exact congrArg (·.getD b) hs
  | b2a => exact congrArg (·.getD b) hnone

lemma dialogue_knows {b : SessionState} {m : SignalMessage} (h : P.Knows addr d m) : (P.dialogue addr b).Knows d m := by
  rcases h with h | ⟨s, hs, hkey⟩
  · left
    rw [dialogue_state]
    cases hs : P.session addr d with
    | none => rw [hs] at h; cases h
    | some s => rwa [hs] at h
  · right
    rw [dialogue_state, hs]
    exact hkey

end Peers

/-! ## The invariant -/

variable [Hash] [X25519] [IncrementalKem] [StateCodec] [Aes] [Wire SignalMessagePB] [Wire PreKeyRecordStructure]
  [Wire SignedPreKeyRecordStructure] [EdwardsPoints] [Kem.Kyber1024]

/-- A recipient that waits for the first message of a handshake, of which it makes the session `b`. -/
structure Awaits (B : InMem) (remote : ProtocolAddress) (l : Labels) (b : SessionState) : Prop where
  fresh : B.sessions remote = none
  new : ∀ m, Fits l m → recipientPreKeyState InMem.host m B = (.ok b, B)
  base : b.aliceBaseKey = l.base.serialize
  chains : b.receiverChains = []
  epoch : (Spqr.epochOf b.pqRatchetState).toNat + 1 < 2 ^ 64

/-- The stored sessions are a dialogue; the recipient has one with the initiator, or still waits. -/
structure Linked (addr : Spqr.Direction → ProtocolAddress) (id : Spqr.Direction → PublicKey) (u : Setup) (l : Labels)
    (b : SessionState) (B : InMem) (P : Peers) : Prop where
  awaits : Awaits B (addr .a2b) l b
  identity : l.identity = id .a2b
  version : ∀ d, u.minVersion d = Spqr.v1
  talking : ∃ L n net, Talking id u (P.dialogue addr b) L n net
  forms : ∀ d, ∀ e ∈ P.sent d, signalOf e.1 = some e.2.1 ∧ ∀ pm, e.1.2 = some pm → d = .a2b ∧ Fits l pm
  initiator : ∃ s acked, P.session addr .a2b = some s ∧ Labelled l acked s ∧
    (acked = true → (P.session addr .b2a).isSome)
  recipient : (∃ s l', P.session addr .b2a = some s ∧ Labelled l' true s ∧ s.aliceBaseKey = l.base.serialize) ∨
    (P.stores .b2a = B ∧ P.sent .b2a = [] ∧ ∀ e ∈ P.sent .a2b, e.1.1 = none)

namespace Peers
variable [Wire PreKeySignalMessagePB] [Wire SessionState] (addr : Spqr.Direction → ProtocolAddress) (P : Peers)
  (d : Spqr.Direction)

inductive Step : Peers → Prop
  | sent {plaintext now rng out m t}
      (h : encrypt InMem.host plaintext (addr (switchDirection d)) now rng (P.stores d) = (.ok out, t))
      (hm : signalOf out = some m) :
      Step { P with
        stores := Function.update P.stores d t
        sent := Function.update P.sent d (P.sent d ++ [(out, m, plaintext)]) }
  | received {e got rng t} (he : e ∈ P.sent (switchDirection d))
      (h : openEnvelope (addr (switchDirection d)) rng e.1 (P.stores d) = (.ok got, t))
      (hknows : P.Knows addr d e.2.1) :
      Step { P with
        stores := Function.update P.stores d t
        keys := P.keys ++ Ledger.steppedKey (P.session addr d) e.2.1 rng }
  | refused {plaintext now rng err t}
      (h : encrypt InMem.host plaintext (addr (switchDirection d)) now rng (P.stores d) = (.error err, t)) :
      Step { P with stores := Function.update P.stores d t }
  | rejected {e rng err t} (he : e ∈ P.sent (switchDirection d))
      (h : openEnvelope (addr (switchDirection d)) rng e.1 (P.stores d) = (.error err, t)) :
      Step { P with stores := Function.update P.stores d t }

/-- A run of both parties in any order that stays within the limits. -/
def Run : Peers → Prop :=
  Relation.ReflTransGen (fun P P' => (∃ d, P.Step addr d P') ∧ P'.Within addr) P

end Peers

section
variable {addr : Spqr.Direction → ProtocolAddress} {id : Spqr.Direction → PublicKey} {u : Setup} {l : Labels}
  {b : SessionState} {B : InMem} {P : Peers} {d : Spqr.Direction} {e : Envelope × SignalMessage × Bytes}

omit [IncrementalKem] [Aes] [Wire SignalMessagePB] in
lemma Awaits.load {remote : ProtocolAddress} (h : Awaits B remote l b) :
    InMem.loadSession remote B = (.ok none, B) := by
  rw [InMem.loadSession, h.fresh]

omit [IncrementalKem] [Aes] [Wire SignalMessagePB] in
lemma Awaits.session (h : Awaits B (addr .a2b) l b) (hB : P.stores .b2a = B) : P.session addr .b2a = none := by
  rw [Peers.session, hB]
  exact currentSession_none h.fresh

namespace Linked

lemma started (h : Linked addr id u l b B P) (he : e ∈ P.sent .b2a) :
    ∃ s l', P.session addr .b2a = some s ∧ Labelled l' true s ∧ s.aliceBaseKey = l.base.serialize := by
  refine h.recipient.resolve_right fun hwaits => ?_
  rw [hwaits.2.1] at he
  cases he

lemma epoch_lt (h : Linked addr id u l b B P) (hP : P.Within addr) (d : Spqr.Direction) :
    (Spqr.epochOf ((P.dialogue addr b).state d).pqRatchetState).toNat + 1 < 2 ^ 64 := by
  rw [Peers.dialogue_state]
  cases hs : P.session addr d with
  | none => exact h.awaits.epoch
  | some s => exact hP.epochs d s hs

lemma steppedKey_eq (h : Linked addr id u l b B P) (m : SignalMessage) (rng : Reader) :
    Ledger.steppedKey (some ((P.dialogue addr b).state d)) m rng = Ledger.steppedKey (P.session addr d) m rng := by
  rw [Peers.dialogue_state]
  cases P.session addr d with
  | none =>
    rw [Ledger.steppedKey, Ledger.steppedKey, Option.getD_none, Option.any_some, SessionState.holdsChain,
      h.awaits.chains]
    rfl
  | some s => rfl

variable [Wire SessionState] (hunseen : l.base ∉ B.baseKeysSeen (l.kyberPreKeyID, l.signedPreKeyID))

include hunseen in
lemma uses (h : Linked addr id u l b B P) (he : e ∈ P.sent (switchDirection d)) :
    Uses (P.stores d) (addr (switchDirection d)) ((P.dialogue addr b).state d) e.1 := by
  obtain ⟨⟨plain, wrapped⟩, m, ptext⟩ := e
  obtain ⟨hsignal, hwrapped⟩ := h.forms _ _ he
  rw [Peers.dialogue_state]
  cases d with
  | a2b =>
    -- the recipient sends no pre-key messages
    cases wrapped with
    | some pm => exact absurd (hwrapped pm rfl).1 nofun
    | none =>
      cases plain with
      | none => cases hsignal
      | some m' =>
        obtain ⟨s, _, hs, _⟩ := h.initiator
        rw [hs, Option.getD_some]
        exact hs
  | b2a =>
    rcases h.recipient with ⟨s, l', hs, _, hbase⟩ | ⟨hstores, _, hpre⟩
    · rw [hs, Option.getD_some]
      cases plain with
      | some m' => exact hs
      | none =>
        cases wrapped with
        | none => cases hsignal
        | some pm =>
          obtain ⟨r, hr, hcur⟩ := Option.bind_eq_some_iff.mp hs
          obtain ⟨hversion, pm', hpm, hpmbase, _, _, _, _, hpmid, _⟩ := (hwrapped pm rfl).2
          cases hpm
          obtain ⟨L, n, net, htalk⟩ := h.talking
          have hbetween : Between (id .b2a) (id .a2b) ((P.session addr .b2a).getD b) := htalk.between .b2a
          rw [hs, Option.getD_some] at hbetween
          refine ⟨some r, true, r, loadSession_of_records hr, preKeyRecord_current hcur ?_ ?_, nofun⟩
          · rw [matchesPreKey, Bool.and_eq_true, beq_iff_eq, beq_iff_eq, hbetween.version, hversion, hbase, hpmbase]
            exact ⟨rfl, rfl⟩
          · rw [hbetween.theirs, hpmid, h.identity]
    · rw [h.awaits.session hstores, Option.getD_none]
      cases plain with
      | some m' => exact absurd (hpre _ he) nofun
      | none =>
        cases wrapped with
        | none => cases hsignal
        | some pm =>
          obtain ⟨_, hfits⟩ := hwrapped pm rfl
          rw [hstores]
          exact ⟨none, false, _, h.awaits.load, preKeyRecord_fresh (h.awaits.new pm hfits),
            fun _ hseen => hunseen (hfits.seen_iff.mp hseen)⟩

section
variable (hX : X25519.Commutes) (haes : Aes.Inverse) (hK : IncrementalKem.Correct)
include hX haes hK hunseen

lemma received (h : Linked addr id u l b B P) (hP : P.Within addr) (he : e ∈ P.sent (switchDirection d))
    {P' : Peers} {got : Bytes} {rng : Reader} {t : InMem}
    (hopen : openEnvelope (addr (switchDirection d)) rng e.1 (P.stores d) = (.ok got, t))
    (hknows : P.Knows addr d e.2.1) (hstores : P'.stores = Function.update P.stores d t) (hsent : P'.sent = P.sent)
    (hkeys : P'.keys = P.keys ++ Ledger.steppedKey (P.session addr d) e.2.1 rng) (hfresh : P'.keys.Nodup) :
    got = e.2.2 ∧ Linked addr id u l b B P' := by
  obtain ⟨s', hdec, hcur⟩ := openEnvelope_ok (h.uses hunseen he) (h.forms _ _ he).1 hopen
  obtain ⟨L, n, net, htalk⟩ := h.talking
  obtain ⟨k, hk⟩ := List.getElem?_of_mem (List.mem_map_of_mem (f := (·.2)) he)
  rw [← h.steppedKey_eq] at hkeys
  have hdialogue : P'.dialogue addr b = (P.dialogue addr b).received d e.2.1 rng s' :=
    Dialogue.ext (Peers.dialogue_update hstores hcur) (by rw [Peers.dialogue, hsent]; rfl) hkeys
  obtain ⟨rfl, htalk'⟩ := htalk.receive hX haes hK (.inr (h.version d)) (h.epoch_lt hP d) hk
    (Peers.dialogue_knows hknows) hdec (hkeys ▸ hfresh)
  have htalk' : ∃ L n net, Talking id u (P'.dialogue addr b) L n net := hdialogue ▸ htalk'
  obtain ⟨hself, hother⟩ := Peers.session_update addr hstores
  obtain ⟨hparties, hpre, _⟩ := decryptWithState_parties hdec
  refine ⟨rfl, { h with talking := htalk', forms := hsent ▸ h.forms, initiator := ?_, recipient := ?_ }⟩
  · obtain ⟨s, acked, hs, hl, hacked⟩ := h.initiator
    cases d with
    | a2b =>
      obtain ⟨s1, _, hs1, _⟩ := h.started he
      have hstate : (P.dialogue addr b).state .a2b = s := by
        rw [Peers.dialogue_state, hs]
        rfl
      exact ⟨s', true, hself.trans hcur, hl.decrypted (hstate ▸ hdec),
        fun _ => Option.isSome_iff_exists.mpr ⟨s1, hother.trans hs1⟩⟩
    | b2a => exact ⟨s, acked, hother.trans hs, hl, fun _ => Option.isSome_iff_exists.mpr ⟨s', hself.trans hcur⟩⟩
  · left
    cases d with
    | a2b =>
      obtain ⟨s, l', hs, hrest⟩ := h.started he
      exact ⟨s, l', hother.trans hs, hrest⟩
    | b2a =>
      simp only [SessionState.parties, Prod.mk.injEq] at hparties
      obtain ⟨_, hid, _, _, _, hbase⟩ := hparties
      have hbetween := htalk.between .b2a
      refine ⟨s', { l with identity := id .b2a, registration := s'.localRegistrationId }, hself.trans hcur,
        ⟨?_, rfl, hpre⟩, hbase.trans ?_⟩
      · rw [hid]
        exact hbetween.ours
      · rw [Peers.dialogue_state]
        rcases h.recipient with ⟨s, _, hs, _, hbase⟩ | ⟨hB, _⟩
        · rw [hs]
          exact hbase
        · rw [h.awaits.session hB]
          exact h.awaits.base

end

section
variable [Wire PreKeySignalMessagePB]

omit [Wire SessionState] in
lemma sent (h : Linked addr id u l b B P) (hP : P.Within addr) {P' : Peers} {plaintext : Bytes} {now : Int}
    {rng : Reader} {t : InMem}
    (henc : encrypt InMem.host plaintext (addr (switchDirection d)) now rng (P.stores d) = (.ok e.1, t))
    (hm : signalOf e.1 = some e.2.1) (hplain : e.2.2 = plaintext) (hstores : P'.stores = Function.update P.stores d t)
    (hsent : P'.sent = Function.update P.sent d (P.sent d ++ [e])) (hkeys : P'.keys = P.keys) :
    Linked addr id u l b B P' := by
  subst hplain
  obtain ⟨m, s, s', hm', hs, hs', hwrites, hstep⟩ := encrypt_writes henc
  cases hm.symm.trans hm'
  have hs : P.session addr d = some s := hs
  have hstate : (P.dialogue addr b).state d = s := by
    rw [Peers.dialogue_state, hs]
    rfl
  obtain ⟨L, n, net, htalk⟩ := h.talking
  obtain ⟨net', htalk'⟩ := htalk.write (hstate ▸ hwrites) (by
    change ((P.sent d).map (·.2)).length < 2 ^ 31
    rw [List.length_map]
    exact hP.sent d)
  have hdialogue : P'.dialogue addr b = (P.dialogue addr b).wrote d e.2.1 e.2.2 s' := by
    refine Dialogue.ext (Peers.dialogue_update hstores hs') (funext (forall_direction d ?_ ?_)) hkeys
    · simp only [Peers.dialogue, Dialogue.wrote, hsent, Function.update_self, List.map_append, List.map_singleton]
    · simp only [Peers.dialogue, Dialogue.wrote, hsent, Function.update_of_ne (switchDirection_ne d)]
  have htalking : ∃ L n net, Talking id u (P'.dialogue addr b) L n net := ⟨L, n, net', hdialogue ▸ htalk'⟩
  obtain ⟨hself, hother⟩ := Peers.session_update addr hstores
  have hself := hself.trans hs'
  -- the other messages keep their form
  have hforms : (∀ pm, e.1.2 = some pm → d = .a2b ∧ Fits l pm) → ∀ d, ∀ e ∈ P'.sent d,
      signalOf e.1 = some e.2.1 ∧ ∀ pm, e.1.2 = some pm → d = .a2b ∧ Fits l pm := by
    intro hnew
    refine forall_direction d ?_ ?_
    · rw [hsent, Function.update_self]
      exact List.forall_mem_append.mpr ⟨h.forms d, List.forall_mem_singleton.mpr ⟨hm, hnew⟩⟩
    · rw [hsent, Function.update_of_ne (switchDirection_ne d)]
      exact h.forms _
  cases d with
  | a2b =>
    obtain ⟨s0, acked, hs0, hl, hacked⟩ := h.initiator
    cases hs.symm.trans hs0
    obtain ⟨hl', hwrapped⟩ := hl.sent hstep
    refine { h with
      talking := htalking
      forms := hforms fun pm hpm => ⟨rfl, ?_⟩
      initiator := ⟨s', acked, hself, hl', fun hack => (congrArg Option.isSome hother).trans (hacked hack)⟩
      recipient := h.recipient.imp (Exists.imp fun _ => Exists.imp fun _ => And.imp_left hother.trans) ?_ }
    · cases acked with
      | true =>
        obtain ⟨_, hout⟩ := hwrapped
        rw [hout] at hpm
        cases hpm
      | false =>
        obtain ⟨pm', hout, hrest⟩ := hwrapped
        rw [hout] at hpm
        cases hpm
        refine ⟨?_, pm, rfl, hrest⟩
        have hversion := (htalk.between .a2b).version
        rw [hstate] at hversion
        rw [hstep.sent_version (congrArg Prod.snd hout), hversion]
        rfl
    · rintro ⟨hstores', hnone, hpre⟩
      refine ⟨?_, ?_, ?_⟩
      · rw [hstores]
        exact hstores'
      · rw [hsent]
        exact hnone
      · rw [hsent, Function.update_self]
        refine List.forall_mem_append.mpr ⟨hpre, List.forall_mem_singleton.mpr ?_⟩
        cases acked with
        | true =>
          have hsome := hacked rfl
          rw [h.awaits.session hstores'] at hsome
          cases hsome
        | false =>
          obtain ⟨pm', hout, _⟩ := hwrapped
          rw [hout]
  | b2a =>
    obtain ⟨s0, l', hs0, hl, hbase⟩ := h.recipient.resolve_right fun hwaits => by
      rw [h.awaits.session hwaits.1] at hs
      cases hs
    cases hs.symm.trans hs0
    obtain ⟨hl', _, hout⟩ := hl.sent hstep
    obtain ⟨s1, acked, hs1, hrest, _⟩ := h.initiator
    refine { h with
      talking := htalking
      forms := hforms fun pm hpm => ?_
      initiator := ⟨s1, acked, hother.trans hs1, hrest, fun _ => Option.isSome_iff_exists.mpr ⟨s', hself⟩⟩
      recipient := .inl ⟨s', l', hself, hl', ?_⟩ }
    · rw [hout] at hpm
      cases hpm
    · have hparties := hstep.parties
      simp only [SessionState.parties, Prod.mk.injEq] at hparties
      obtain ⟨_, _, _, _, _, hsame⟩ := hparties
      exact hsame.trans hbase

omit [Wire SessionState] [Wire PreKeySignalMessagePB] in
lemma failed (h : Linked addr id u l b B P) {t : InMem} (hrecords : t.records = (P.stores d).records)
    (hwaits : d = .b2a → P.stores .b2a = B → P.sent .b2a = [] → (∀ e ∈ P.sent .a2b, e.1.1 = none) → t = B) :
    Linked addr id u l b B { P with stores := Function.update P.stores d t } := by
  have hsession : ∀ d', Peers.session addr { P with stores := Function.update P.stores d t } d' = P.session addr d' := by
    have hupdate : Peers.stores { P with stores := Function.update P.stores d t } = Function.update P.stores d t := rfl
    refine forall_direction d ((Peers.session_update addr hupdate).1.trans ?_) (Peers.session_update addr hupdate).2
    rw [currentSession, hrecords]
    rfl
  have hdialogue : Peers.dialogue addr { P with stores := Function.update P.stores d t } b = P.dialogue addr b :=
    Dialogue.ext (funext fun d' => congrArg (·.getD b) (hsession d')) rfl rfl
  refine { h with talking := hdialogue ▸ h.talking, initiator := ?_, recipient := ?_ }
  · rw [hsession, hsession]
    exact h.initiator
  · rw [hsession]
    refine h.recipient.imp_right fun hawaits => ⟨?_, hawaits.2⟩
    cases d with
    | a2b => exact hawaits.1
    | b2a => exact hwaits rfl hawaits.1 hawaits.2.1 hawaits.2.2

end

omit [Wire SessionState] in
lemma reaches (h : Linked addr id u l b B P) {m : SignalMessage} (hreach : P.Reaches addr d m) :
    (P.dialogue addr b).Reaches d m := by
  have hchains : ((P.dialogue addr b).state d).receiverChains = (P.session addr d).elim [] (·.receiverChains) := by
    rw [Peers.dialogue_state]
    cases P.session addr d with
    | none => exact h.awaits.chains
    | some s => rfl
  rw [Dialogue.Reaches, hchains]
  rw [Peers.Reaches] at hreach
  split
  · rename_i c hc
    rw [hc] at hreach
    exact hreach
  · rename_i hnone
    rw [hnone] at hreach
    obtain ⟨⟨s, hs, hkey⟩, hcounter⟩ := hreach
    refine ⟨?_, hcounter⟩
    rw [Peers.dialogue_state, hs]
    exact hkey

variable (hX : X25519.Commutes) (haes : Aes.Inverse) (hK : IncrementalKem.Correct)
include hX haes hK hunseen

lemma step [Wire PreKeySignalMessagePB] (h : Linked addr id u l b B P) (hP : P.Within addr) {P' : Peers}
    (hstep : P.Step addr d P') (hP' : P'.Within addr) :
    Linked addr id u l b B P' := by
  cases hstep with
  | sent henc hm => exact h.sent hP henc hm rfl rfl rfl rfl
  | received he hopen hknows => exact And.right (h.received hunseen hX haes hK hP he hopen hknows rfl rfl rfl hP'.keys)
  | refused henc =>
    refine h.failed ((triple_encrypt_view InMem.byValue _ _ _ _ _ rfl).2 _ _ henc).symm ?_
    rintro rfl hB - -
    have hload : InMem.host.loadSession (addr (switchDirection .b2a)) B = (.ok none, B) := h.awaits.load
    rw [hB, encrypt, bind_run_ok (storeCall_ok hload)] at henc
    cases henc
    rfl
  | @rejected e rng err t he hopen =>
    refine h.failed (openEnvelope_error hopen) ?_
    rintro rfl hB - hpre
    obtain ⟨hsignal, hwrapped⟩ := h.forms _ _ he
    obtain ⟨⟨plain, wrapped⟩, m, ptext⟩ := e
    obtain rfl : plain = none := hpre _ he
    cases wrapped with
    | none => cases hsignal
    | some pm =>
      rw [hB] at hopen
      rcases decryptPreKey_error hopen with rfl | ⟨_, hseen, _⟩
      · rfl
      · exact absurd ((hwrapped pm rfl).2.seen_iff.mp hseen) hunseen

lemma run [Wire PreKeySignalMessagePB] {P' : Peers} (h : Linked addr id u l b B P) (hP : P.Within addr)
    (hrun : P.Run addr P') :
    Linked addr id u l b B P' ∧ P'.Within addr := by
  induction hrun with
  | refl => exact ⟨h, hP⟩
  | tail _ hstep ih =>
    obtain ⟨⟨d, hstep⟩, hP'⟩ := hstep
    exact ⟨ih.1.step hunseen hX haes hK ih.2 hstep hP', hP'⟩

lemma delivers (h : Linked addr id u l b B P) (hP : P.Within addr) (he : e ∈ P.sent (switchDirection d))
    (hreach : P.Reaches addr d e.2.1) (htrust : ∀ pm, e.1.2 = some pm →
      InMem.isTrustedIdentity (addr (switchDirection d)) pm.identityKey .receiving (P.stores d) =
        (.ok true, P.stores d)) {rng : Reader} (hpair : ∃ pair, generateKeyPair rng = .ok pair)
    (hfresh : (P.keys ++ Ledger.steppedKey (P.session addr d) e.2.1 rng).Nodup)
    (hrecv : ∀ s, Uses (P.stores d) (addr (switchDirection d)) s e.1 →
      ∃ res, Spqr.recv s.pqRatchetState e.2.1.pqRatchet = .ok res) :
    ∃ t, openEnvelope (addr (switchDirection d)) rng e.1 (P.stores d) = (.ok e.2.2, t) := by
  obtain ⟨L, n, net, htalk⟩ := h.talking
  obtain ⟨k, hk⟩ := List.getElem?_of_mem (List.mem_map_of_mem (f := (·.2)) he)
  have huses := h.uses hunseen he
  obtain ⟨res, hres⟩ := hrecv _ huses
  obtain ⟨s', hdec⟩ := htalk.delivers hX haes hK (.inr (h.version d)) (h.epoch_lt hP d) hk (h.reaches hreach) hpair hres
    (by rw [h.steppedKey_eq]; exact hfresh)
  exact openEnvelope_run huses (h.forms _ _ he).1 htrust hdec

end Linked

end

/-! ## The handshake -/

structure Backs (B : InMem) (bundle : PreKeyBundle) (signedPair : KeyPair) (oneTime : Option KeyPair)
    (kyberPair : Kem.KeyPair) : Prop where
  identity : B.keyPair.Valid ∧ B.keyPair.publicKey = bundle.identityKey
  signed : signedPair.Valid ∧ signedPair.publicKey = bundle.signedPreKey ∧ ∃ raw rec,
    B.signedPreKeys bundle.signedPreKeyID = some raw ∧ unmarshal raw = some (rec : SignedPreKeyRecordStructure) ∧
      recipientCurveKeyPair rec.publicKey rec.privateKey = .ok signedPair
  kyber : kyberPair.Valid ∧ kyberPair.publicKey = bundle.kyberPreKey ∧ ∃ raw rec,
    B.kyberPreKeys bundle.kyberPreKeyID = some raw ∧ unmarshal raw = some (rec : SignedPreKeyRecordStructure) ∧
      Kem.keyPairFromPublicAndSecret rec.publicKey rec.privateKey = .ok kyberPair
  oneTime : (∀ k ∈ oneTime, k.Valid) ∧ oneTime.map (·.publicKey) = bundle.preKey.map (·.2) ∧
    oneTimePreKey InMem.host (bundle.preKey.map (·.1)) B = (.ok oneTime, B)

section
variable {B : InMem} {bundle : PreKeyBundle} {signedPair : KeyPair} {oneTime : Option KeyPair} {kyberPair : Kem.KeyPair}

omit [IncrementalKem] [Aes] [Wire SignalMessagePB] in
lemma Backs.recipientPreKeyState_ok (h : Backs B bundle signedPair oneTime kyberPair) {l : Labels}
    (hpre : l.preKeyID = bundle.preKey.map (·.1)) (hsigned : l.signedPreKeyID = bundle.signedPreKeyID)
    (hkyber : l.kyberPreKeyID = bundle.kyberPreKeyID) (hct : l.kyberCiphertext.length ≠ 0) {s : SessionState}
    (hs : initializeBobSession ⟨B.keyPair, signedPair, oneTime, kyberPair, l.identity, l.base, l.kyberCiphertext⟩ =
      .ok s) {m : PreKeySignalMessage} (hm : Fits l m) : recipientPreKeyState InMem.host m B =
        (.ok { s with localRegistrationId := B.registrationID, remoteRegistrationId := l.registration }, B) := by
  obtain ⟨hversion, _, hout, hbase, hpreID, hsignedID, hkyberID, hcipher, hidentity, hregistration⟩ := hm
  cases hout
  obtain ⟨_, _, raw, rec, hraw, hrec, hpair⟩ := h.signed
  obtain ⟨_, _, kraw, krec, hkraw, hkrec, hkpair⟩ := h.kyber
  obtain ⟨_, _, hone⟩ := h.oneTime
  have hget : InMem.host.getSignedPreKey m.signedPreKeyID B = (.ok raw, B) := by
    change InMem.entry (·.signedPreKeys m.signedPreKeyID) B = _
    rw [InMem.entry, hsignedID, hsigned, hraw]
  have hkget : InMem.host.getKyberPreKey l.kyberPreKeyID B = (.ok kraw, B) := by
    change InMem.entry (·.kyberPreKeys l.kyberPreKeyID) B = _
    rw [InMem.entry, hkyber, hkraw]
  have hparams : bobParamsOf B.keyPair signedPair oneTime kyberPair m =
      ⟨B.keyPair, signedPair, oneTime, kyberPair, l.identity, l.base, l.kyberCiphertext⟩ := by
    rw [bobParamsOf, hidentity, hbase, hcipher]
  rw [← hpre, ← hpreID] at hone
  rw [recipientPreKeyState, if_neg (not_not.mpr hversion), hkyberID]
  dsimp only
  rw [hcipher, if_neg hct, bind_run_ok (storeCall_ok hget), parseRecord, hrec, bind_run_ok (lift_run _ _), hpair,
    bind_run_ok (lift_run _ _), bind_run_ok (storeCall_ok hkget), parseRecord, hkrec, bind_run_ok (lift_run _ _), hkpair,
    mapError_ok, bind_run_ok (lift_run _ _), bind_run_ok hone,
    bind_run_ok (storeCall_ok (show InMem.host.getIdentityKeyPair B = (.ok B.keyPair, B) from rfl)),
    bind_run_ok (storeCall_ok (show InMem.host.getLocalRegistrationID B = (.ok B.registrationID, B) from rfl)),
    hparams, hs, bind_run_ok (lift_run _ _), hregistration]
  rfl

variable [XEdDSA] [Wire SessionState]

structure Introduced (addr : Spqr.Direction → ProtocolAddress) (A B : InMem) (bundle : PreKeyBundle) (rng : Readers)
    (coins : Bytes) (now : UInt64) (A' : InMem) (base ratchet : KeyPair) : Prop where
  processed : processPreKeyBundle InMem.host rng coins now (addr .b2a) bundle A = (.ok (), A')
  baseKey : generateKeyPair (rng 0) = .ok base
  ratchetKey : generateKeyPair (rng 1) = .ok ratchet
  identity : A.keyPair.Valid
  backs : ∃ signedPair oneTime kyberPair, Backs B bundle signedPair oneTime kyberPair
  canonical : base.publicKey.isCanonical = true
  fresh : B.sessions (addr .a2b) = none
  distinct : [bundle.signedPreKey, ratchet.publicKey].Nodup

variable {addr : Spqr.Direction → ProtocolAddress} {A A' : InMem} {rng : Readers} {coins : Bytes} {now : UInt64}
  {base ratchet : KeyPair}

lemma Introduced.linked (h : Introduced addr A B bundle rng coins now A' base ratchet) (hX : X25519.Commutes)
    (hkem : Kem.Kyber1024.Correct) :
    ∃ id u l b, Linked addr id u l b B (.start A' B [bundle.signedPreKey, ratchet.publicKey]) ∧
      Peers.Within addr (.start A' B [bundle.signedPreKey, ratchet.publicKey]) ∧
      l.identity = A.keyPair.publicKey ∧ l.base = base.publicKey ∧ l.kyberPreKeyID = bundle.kyberPreKeyID ∧
      l.signedPreKeyID = bundle.signedPreKeyID ∧
      ∀ d, ((Peers.dialogue addr (.start A' B [bundle.signedPreKey, ratchet.publicKey]) b).state d).pqRatchetState =
        Spqr.Net.state (.start u) d := by
  obtain ⟨base', s, hbase, hs, hcur⟩ := processPreKeyBundle_inv h.processed
  cases hbase.symm.trans h.baseKey
  obtain ⟨signedPair, oneTime, kyberPair, hB⟩ := h.backs
  obtain ⟨s0, pk, hs0, hpk, rfl⟩ := bundleSession_inv hs
  obtain ⟨_, _, _, _, ss, ct, _, _, _, _, _, hkyber, _⟩ := initializeAliceSession_inv hs0
  let q : BobParams := ⟨B.keyPair, signedPair, oneTime, kyberPair, A.keyPair.publicKey, base.publicKey, ct⟩
  have hmirror : Mirrored (aliceParamsOf A.keyPair base bundle) q :=
    ⟨hB.identity.2.symm, hB.signed.2.1.symm, hB.oneTime.2.1.symm, hB.kyber.2.1.symm, rfl, rfl,
      ⟨h.identity, generateKeyPair_valid hbase⟩, hB.identity.1, hB.signed.1, hB.oneTime.1, hB.kyber.1⟩
  obtain ⟨initial, ratchet', root, chain, hindex, hratchet, hchain, rfl, hbob⟩ :=
    hmirror.recipient_ok hX hkem hs0 hkyber h.canonical
  cases hratchet.symm.trans h.ratchetKey
  cases hpk
  let l : Labels := ⟨A.keyPair.publicKey, A.registrationID, base.publicKey, bundle.preKey.map (·.1),
    bundle.signedPreKeyID, bundle.kyberPreKeyID, ct⟩
  let b : SessionState := { bobState q initial with
    localRegistrationId := B.registrationID, remoteRegistrationId := A.registrationID }
  have hct : ct.length ≠ 0 := (initializeBobSession_inv hbob).1
  let u := ratchetSetup initial A.keyPair.publicKey bundle.identityKey
  have hnone : Peers.session addr (.start A' B [bundle.signedPreKey, ratchet.publicKey]) .b2a = none :=
    currentSession_none h.fresh
  obtain ⟨id, L, n, htalk, hid⟩ : ∃ id L n, Talking id u (Peers.dialogue addr
      (.start A' B [bundle.signedPreKey, ratchet.publicKey]) b) L n (.start u) ∧ id .a2b = A.keyPair.publicKey := by
    rw [Peers.dialogue_start hcur hnone]
    exact ⟨_, _, _, hmirror.talking hindex hratchet hchain h.distinct, rfl⟩
  have hepoch : ∀ d, (Spqr.epochOf ((Peers.dialogue addr (.start A' B [bundle.signedPreKey, ratchet.publicKey])
      b).state d).pqRatchetState).toNat + 1 < 2 ^ 64 := by
    obtain ⟨v, hj, hv⟩ := Spqr.Joint.start u
    intro d
    rw [← htalk.ratchet, hj.epochOf_eq, hv]
    decide
  have hawaits : Awaits B (addr .a2b) l b := by
    refine ⟨h.fresh, fun m hm => hB.recipientPreKeyState_ok rfl rfl rfl hct hbob hm, rfl, rfl, ?_⟩
    have hb := hepoch .b2a
    rw [Peers.dialogue_state, hnone] at hb
    exact hb
  refine ⟨id, u, l, b, ⟨hawaits, hid.symm, fun _ => rfl, ⟨L, n, _, htalk⟩, fun _ _ he => absurd he List.not_mem_nil,
    ⟨_, false, hcur, ⟨rfl, rfl, ⟨now, rfl⟩, rfl⟩, nofun⟩,
    .inr ⟨rfl, rfl, fun _ he => absurd he List.not_mem_nil⟩⟩,
    ⟨h.distinct, fun _ => Nat.two_pow_pos 31, fun d s hs => ?_⟩,
    rfl, rfl, rfl, rfl, fun d => (htalk.ratchet d).symm⟩
  have hd := hepoch d
  rw [Peers.dialogue_state, hs] at hd
  exact hd

end

end LibSignal.Session
