import LibSignal.Session.Reading

/-!
# What holds of every stored session

`Host.Contract` says what the stores of a host promise, with a view of the sessions they hold; copies and
aliases are both allowed.
-/

namespace LibSignal.Session
open Address (ProtocolAddress)
open Chunked (Bytes)
open Crypto Curve Lib Lib.Op Proto Protocol
open Ratchet
open Spqr (StateCodec)

variable {σ : Type}

/-- The stores of a host keep to their documentation: `view` reads the session records they hold. A failed
write may have been done or not, and a record changed in place may be the stored one or a copy. -/
structure Host.Contract (host : Host σ) (view : σ → ProtocolAddress → Option SessionRecord) : Prop where
  loadSession : ∀ a s r s', host.loadSession a s = (r, s') → view s' = view s ∧ ∀ rec, r = .ok rec → rec = view s a
  storeSession : ∀ a rec s, view (host.storeSession a rec s).2 = view s ∨
    view (host.storeSession a rec s).2 = Function.update (view s) a (some rec)
  storeSession_ok : ∀ a rec s s', host.storeSession a rec s = (.ok (), s') →
    view s' = Function.update (view s) a (some rec)
  touch : ∀ a rec s, view (host.touch a rec s) = view s ∨
    view (host.touch a rec s) = Function.update (view s) a (some rec)
  isTrustedIdentity : ∀ a k d s, view (host.isTrustedIdentity a k d s).2 = view s
  saveIdentity : ∀ a k s, view (host.saveIdentity a k s).2 = view s
  getIdentityKeyPair : ∀ s, view (host.getIdentityKeyPair s).2 = view s
  getLocalRegistrationID : ∀ s, view (host.getLocalRegistrationID s).2 = view s
  getPreKey : ∀ id s, view (host.getPreKey id s).2 = view s
  removePreKey : ∀ id s, view (host.removePreKey id s).2 = view s
  getSignedPreKey : ∀ id s, view (host.getSignedPreKey id s).2 = view s
  getKyberPreKey : ∀ id s, view (host.getKyberPreKey id s).2 = view s
  markKyberPreKeyUsed : ∀ k e b s, view (host.markKyberPreKeyUsed k e b s).2 = view s

structure Host.ByValue (host : Host σ) (view : σ → ProtocolAddress → Option SessionRecord) : Prop
    extends host.Contract view where
  storeSession_error : ∀ a rec s s', host.storeSession a rec s = (.error (), s') → view s' = view s
  touch_eq : ∀ a rec s, view (host.touch a rec s) = view s

lemma keeps_quiet {view : σ → ProtocolAddress → Option SessionRecord} {α : Type} {c : StoreCall}
    {x : Op σ Unit α} {I : (ProtocolAddress → Option SessionRecord) → Prop} (hx : ∀ t, view (x t).2 = view t) :
    Keeps (fun t => I (view t)) (storeCall c x) := by
  refine keeps_call fun t ht => ?_
  rw [hx]
  exact ht

lemma Host.Contract.reads {host : Host σ} {view : σ → ProtocolAddress → Option SessionRecord}
    (hc : host.Contract view) (I : (ProtocolAddress → Option SessionRecord) → Prop) :
    host.Reads fun t => I (view t) where
  loadSession := fun a t ht => by rw [(hc.loadSession a t _ _ rfl).1]; exact ht
  isTrustedIdentity := fun a k d t ht => by rw [hc.isTrustedIdentity]; exact ht
  getIdentityKeyPair := fun t ht => by rw [hc.getIdentityKeyPair]; exact ht
  getLocalRegistrationID := fun t ht => by rw [hc.getLocalRegistrationID]; exact ht
  getPreKey := fun id t ht => by rw [hc.getPreKey]; exact ht
  getSignedPreKey := fun id t ht => by rw [hc.getSignedPreKey]; exact ht
  getKyberPreKey := fun id t ht => by rw [hc.getKyberPreKey]; exact ht

section
variable [Wire SessionState] {P : SessionState → Prop} {r : SessionRecord} {s : SessionState}

structure SessionRecord.All (P : SessionState → Prop) (r : SessionRecord) : Prop where
  current : ∀ s, r.current = some s → P s
  archived : ∀ b ∈ r.previousSessions, ∀ s, unmarshal b = some s → P s

namespace SessionRecord

lemma all_fresh : fresh.All P := ⟨fun _ h => (nomatch h), fun _ h => (nomatch h)⟩

lemma All.withCurrent (h : r.All P) (hs : P s) : SessionRecord.All P { r with current := some s } :=
  ⟨fun _ hcur => by cases hcur; exact hs, h.archived⟩

lemma All.archiveCurrentState (h : r.All P) (hclear : ∀ s, P s → P s.clearUnacknowledgedPreKeyMessage) :
    r.archiveCurrentState.All P := by
  rw [SessionRecord.archiveCurrentState]
  cases hcur : r.current with
  | none => exact h
  | some s =>
    refine ⟨by rintro _ ⟨⟩, fun b hb s' hs' => ?_⟩
    rcases List.mem_cons.mp hb with rfl | hb
    · rw [unmarshal_marshal] at hs'
      cases hs'
      exact hclear s (h.current s hcur)
    · refine h.archived b ?_ s' hs'
      split at hb
      · exact List.mem_of_mem_take hb
      · exact hb

lemma All.promoteState (h : r.All P) (hclear : ∀ s, P s → P s.clearUnacknowledgedPreKeyMessage) (hs : P s) :
    (r.promoteState s).All P :=
  (h.archiveCurrentState hclear).withCurrent hs

lemma All.promoteOldSession {r' : SessionRecord} {i : Int} (h : r.All P)
    (hclear : ∀ s, P s → P s.clearUnacknowledgedPreKeyMessage) (hr : r.promoteOldSession i = .ok r') :
    r'.All P := by
  rw [SessionRecord.promoteOldSession] at hr
  split at hr
  · cases hr
  · split at hr
    · cases hr
    · rename_i old hold
      cases hr
      obtain ⟨b, hb, hold⟩ := Option.bind_eq_some_iff.mp hold
      refine All.promoteState ⟨h.current, fun b' hb' => ?_⟩ hclear ?_
      · exact h.archived b' (List.mem_of_mem_eraseIdx hb')
      · exact h.archived b (List.mem_of_getElem? hb) old hold

end SessionRecord

def Everywhere (P : SessionState → Prop) (records : ProtocolAddress → Option SessionRecord) : Prop :=
  ∀ a r, records a = some r → r.All P

end

/-- A property of all stored records, each with its address. -/
def EveryRecord (Q : ProtocolAddress → SessionRecord → Prop) (records : ProtocolAddress → Option SessionRecord) :
    Prop :=
  ∀ a r, records a = some r → Q a r

section
variable {Q : ProtocolAddress → SessionRecord → Prop} {r : SessionRecord} {host : Host σ}
  {view : σ → ProtocolAddress → Option SessionRecord}

lemma EveryRecord.update {records : ProtocolAddress → Option SessionRecord} (h : EveryRecord Q records)
    (a : ProtocolAddress) (hr : Q a r) : EveryRecord Q (Function.update records a (some r)) := by
  intro a' r' h'
  by_cases ha : a' = a
  · subst ha
    rw [Function.update_self] at h'
    cases h'
    exact hr
  · rw [Function.update_of_ne ha] at h'
    exact h a' r' h'

lemma EveryRecord.getD {records : ProtocolAddress → Option SessionRecord} (h : EveryRecord Q records)
    {a : ProtocolAddress} (hfresh : Q a .fresh) : Q a ((records a).getD .fresh) := by
  cases hr : records a with
  | none => exact hfresh
  | some r => exact h a r hr

lemma triple_loadSession (hc : host.Contract view) {I : (ProtocolAddress → Option SessionRecord) → Prop}
    (a : ProtocolAddress) : Triple (fun t => I (view t)) (storeCall .loadSession (host.loadSession a))
      (fun rec t => I (view t) ∧ ∃ V, I V ∧ rec = V a) fun _ t => I (view t) := by
  refine Triple.mapErr fun t ht => ⟨fun rec t' hrun => ?_, fun e t' hrun => ?_⟩
  · obtain ⟨hview, hrec⟩ := hc.loadSession a t _ t' hrun
    rw [hview]
    exact ⟨ht, view t, ht, hrec rec rfl⟩
  · change I (view t')
    rw [(hc.loadSession a t _ t' hrun).1]
    exact ht

lemma keeps_storeSession (hc : host.Contract view) (a : ProtocolAddress) (hr : Q a r) :
    Keeps (fun t => EveryRecord Q (view t)) (storeCall .storeSession (host.storeSession a r)) := by
  refine Triple.mapErr (Keeps.of_run fun t ht => ?_)
  rcases hc.storeSession a r t with h | h <;> rw [h]
  · exact ht
  · exact ht.update a hr

lemma keeps_touch (hc : host.Contract view) (a : ProtocolAddress) (hr : Q a r) :
    Keeps (fun t => EveryRecord Q (view t)) (modify (host.touch a r) : Op σ SessionErr Unit) := by
  refine triple_modify fun t ht => ?_
  rcases hc.touch a r t with h | h <;> rw [h]
  · exact ht
  · exact ht.update a hr

lemma keeps_commitPreKey (hc : host.Contract view) (m : PreKeySignalMessage) (remote : ProtocolAddress)
    (matched : Bool) {working : SessionRecord} (hrec : Q remote working) :
    Keeps (fun t => EveryRecord Q (view t)) (commitPreKey host m remote matched working) := by
  refine Triple.bind (keeps_quiet (hc.saveIdentity _ _)) fun _ => ?_
  have hstore := keeps_storeSession hc remote hrec
  split
  · refine Triple.bind (keeps_quiet (hc.markKyberPreKeyUsed _ _ _)) fun _ => ?_
    split
    · exact Triple.bind (keeps_quiet (hc.removePreKey _)) fun _ => hstore
    · exact hstore
  · exact hstore

end

/-! ## The calls -/

section
variable [Hash] [X25519] [IncrementalKem] [StateCodec] [Aes] [Kem.Kyber1024] [EdwardsPoints] [Wire SessionState]

/-- A property of records that every call keeps. A bundle is processed with a base key that `A` allows for the
record. -/
structure RecordClosed (A : SessionRecord → KeyPair → Prop) (Q : SessionRecord → Prop) : Prop where
  fresh : Q .fresh
  sent : ∀ {r s s' rng out}, Q r → r.current = some s → s.pqRatchetSend rng = .ok (out, s') →
    Q { r with current := some s' }
  advanced : ∀ {r s s' ck}, Q r → r.current = some s → s.setSenderChainKey ck = .ok s' →
    Q { r with current := some s' }
  received : ∀ {r s s' m rng ptext}, Q r → r.current = some s → decryptWithState s m rng = .ok (ptext, s') →
    Q { r with current := some s' }
  matched : ∀ {r r' m}, Q r → promoteMatchingPreKeySession r m = .ok (true, r') → Q r'
  created : ∀ {r m s}, Q r → promoteMatchingPreKeySession r m = .ok (false, r) → NewSession m s →
    Q (r.promoteState s)
  started : ∀ {r rng coins now bundle identity base id s}, Q r → A r base →
    bundleSession rng coins now bundle identity base id = .ok s → Q (r.promoteState s)
  built : ∀ {p s}, initializeBobSession p = .ok s → Q ⟨some s, []⟩

variable {A : SessionRecord → KeyPair → Prop} {Q : ProtocolAddress → SessionRecord → Prop} {host : Host σ}
  {view : σ → ProtocolAddress → Option SessionRecord}

/-- All records have a property, and the base key that is drawn is allowed for the record of a peer. -/
def Allows (A : SessionRecord → KeyPair → Prop) (Q : ProtocolAddress → SessionRecord → Prop) (rng : Readers)
    (remote : ProtocolAddress) (records : ProtocolAddress → Option SessionRecord) : Prop :=
  EveryRecord Q records ∧
    ∀ base, generateKeyPair (rng 0) = .ok base → A ((records remote).getD .fresh) base

namespace RecordClosed

variable {remote : ProtocolAddress}

lemma encryptWith [Wire SignalMessagePB] [Wire PreKeySignalMessagePB] (hQ : RecordClosed A (Q remote))
    (hc : host.Contract view) (plaintext : Bytes) (now : Int) (rng : Reader) {record : SessionRecord}
    {state : SessionState} (hrec : Q remote record) (hs : record.current = some state) :
    Keeps (fun t => EveryRecord Q (view t)) (encryptWith host plaintext remote now rng record state) := by
  refine Keeps.lift_bind fun ⟨senderID, receiverID, chainKey⟩ _ => ?_
  refine Keeps.lift_bind fun ⟨⟨pqrMsg, pqrKey⟩, state1⟩ hsend => ?_
  have hrec1 : Q remote { record with current := some state1 } := hQ.sent hrec hs hsend
  refine Triple.bind (keeps_touch hc remote hrec1) fun _ => ?_
  refine Keeps.lift_bind fun out _ => ?_
  refine Triple.bind (keeps_quiet (hc.isTrustedIdentity _ _ _)) fun trusted => ?_
  split
  · exact Keeps.fail _
  · refine Triple.bind (keeps_quiet (hc.saveIdentity _ _)) fun _ => ?_
    refine Keeps.lift_bind fun state2 hset => ?_
    have hrec2 : Q remote { record with current := some state2 } :=
      hQ.advanced (r := { record with current := some state1 }) hrec1 rfl hset
    refine Triple.bind (keeps_touch hc remote hrec2) fun _ => ?_
    exact Triple.bind (keeps_storeSession hc remote hrec2) fun _ => Keeps.pure _

lemma encrypt [Wire SignalMessagePB] [Wire PreKeySignalMessagePB] (hQ : RecordClosed A (Q remote))
    (hc : host.Contract view) (plaintext : Bytes) (now : Int) (rng : Reader) :
    Keeps (fun t => EveryRecord Q (view t)) (encrypt host plaintext remote now rng) := by
  refine (triple_loadSession hc remote).bind fun rec => Triple.of_fact ?_
  rintro ⟨V, hV, hrec⟩
  cases rec with
  | none => exact Keeps.fail _
  | some record =>
    cases hcur : record.current with
    | none => simp only [hcur]; exact Keeps.fail _
    | some state =>
      simp only [hcur]
      exact hQ.encryptWith hc plaintext now rng (hV remote record hrec.symm) hcur

lemma decrypt (hQ : RecordClosed A (Q remote)) (hc : host.Contract view) (m : SignalMessage) (rng : Reader) :
    Keeps (fun t => EveryRecord Q (view t)) (decrypt host m remote rng) := by
  refine (triple_loadSession hc remote).bind fun rec => Triple.of_fact ?_
  rintro ⟨V, hV, hrec⟩
  cases rec with
  | none => exact Keeps.fail _
  | some record =>
    cases hcur : record.current with
    | none => simp only [hcur]; exact Keeps.fail _
    | some state =>
      simp only [hcur]
      refine Keeps.lift_bind fun ⟨ptext, working⟩ hdec => ?_
      have hrec1 : Q remote { record with current := some working } :=
        hQ.received (hV remote record hrec.symm) hcur hdec
      refine Triple.bind (keeps_touch hc remote hrec1) fun _ => ?_
      exact Triple.bind (keeps_storeSession hc remote hrec1) fun _ => Keeps.pure _

lemma processPreKeyBundle [XEdDSA] (hQ : RecordClosed A (Q remote)) (hc : host.Contract view) (rng : Readers)
    (coins : Bytes) (now : UInt64) (bundle : PreKeyBundle) :
    Triple (fun t => Allows A Q rng remote (view t)) (processPreKeyBundle host rng coins now remote bundle)
      (fun _ t => EveryRecord Q (view t)) fun _ t => EveryRecord Q (view t) := by
  have hweak : ∀ (e : SessionErr) (t : σ), Allows A Q rng remote (view t) → EveryRecord Q (view t) :=
    fun _ _ h => h.1
  have hquiet : ∀ {α : Type} {c : StoreCall} {x : Op σ Unit α}, (∀ t, view (x t).2 = view t) →
      Triple (fun t => Allows A Q rng remote (view t)) (storeCall c x)
        (fun _ t => Allows A Q rng remote (view t)) fun _ t => EveryRecord Q (view t) :=
    fun hx => (keeps_quiet hx).imp (fun _ h => h) (fun _ _ h => h) hweak
  refine Triple.bind (hquiet (hc.isTrustedIdentity _ _ _)) fun trusted => ?_
  split_ifs
  · exact triple_fail fun _ h => h.1
  · exact triple_fail fun _ h => h.1
  · exact triple_fail fun _ h => h.1
  · refine ((triple_loadSession hc remote).imp (fun _ h => h) (fun _ _ h => h) hweak).bind fun loaded =>
      Triple.of_fact ?_
    rintro ⟨V, hV, rfl⟩
    refine Triple.bind (hquiet hc.getIdentityKeyPair) fun ourIdentity => ?_
    refine Triple.bind (hquiet hc.getLocalRegistrationID) fun id => ?_
    refine Triple.lift_bind hweak fun base hbase => Triple.lift_bind hweak fun state hstate => ?_
    refine Triple.bind (hquiet (hc.saveIdentity _ _)) fun _ => ?_
    have hrec : Q remote (((V remote).getD .fresh).promoteState state) :=
      hQ.started (hV.1.getD hQ.fresh) (hV.2 base (mapError_eq_ok hbase)) hstate
    refine Triple.bind (R := fun _ t => EveryRecord Q (view t)) (triple_modify fun t ht => ?_) fun _ =>
      keeps_storeSession hc remote hrec
    split
    · exact ((keeps_touch hc remote hrec) t ht.1).1 () _ rfl
    · exact ht.1

lemma prepared {Q : SessionRecord → Prop} (hQ : RecordClosed A Q) {m : PreKeySignalMessage}
    {stored : SessionRecord} {r : Bool × SessionRecord × SessionState} (hrec : Q stored)
    (h : Prepared m stored r) : Q r.2.1 ∧ r.2.1.current = some r.2.2 := by
  obtain ⟨matched, working, s⟩ := r
  cases matched with
  | true =>
    obtain ⟨hprom, hcur, _⟩ := h
    exact ⟨hQ.matched hrec hprom, hcur⟩
  | false =>
    obtain ⟨hprom, rfl, hnew⟩ := h
    exact ⟨hQ.created hrec hprom hnew, rfl⟩

variable [Wire PreKeyRecordStructure] [Wire SignedPreKeyRecordStructure] [Wire RecordStructure]

lemma decryptPreKey (hQ : RecordClosed A (Q remote)) (hc : host.Contract view) (m : PreKeySignalMessage)
    (rng : Reader) : Keeps (fun t => EveryRecord Q (view t)) (decryptPreKey host m remote rng) := by
  refine Triple.bind (keeps_quiet (hc.isTrustedIdentity _ _ _)) fun trusted => ?_
  split
  · exact Keeps.fail _
  · refine (triple_loadSession hc remote).bind fun stored => Triple.of_fact ?_
    rintro ⟨V, hV, rfl⟩
    refine Keeps.lift_bind fun working hworking => ?_
    have hrec : Q remote working := by
      rw [workingRecord_eq] at hworking
      cases hworking
      exact hV.getD hQ.fresh
    refine Triple.bind (preKeyRecord_reads (hc.reads _) m working) fun ⟨matched, working', state⟩ =>
      Triple.of_fact fun h => ?_
    obtain ⟨hrec', hs⟩ := hQ.prepared hrec h
    refine Keeps.lift_bind fun ⟨ptext, state'⟩ hdec => ?_
    exact Triple.bind (keeps_commitPreKey hc m remote matched (hQ.received hrec' hs hdec)) fun _ => Keeps.pure _

end RecordClosed

/-- A call on the stores of a host, by anyone and with anything. `initializeBobSession` is a host that builds
a session itself and stores it. -/
inductive Call where
  | processPreKeyBundle (rng : Readers) (coins : Bytes) (now : UInt64) (remote : ProtocolAddress)
      (bundle : PreKeyBundle)
  | initializeBobSession (remote : ProtocolAddress) (p : BobParams)
  | encrypt (plaintext : Bytes) (remote : ProtocolAddress) (now : Int) (rng : Reader)
  | decrypt (m : SignalMessage) (remote : ProtocolAddress) (rng : Reader)
  | decryptPreKey (m : PreKeySignalMessage) (remote : ProtocolAddress) (rng : Reader)

variable [Wire PreKeyRecordStructure] [Wire SignedPreKeyRecordStructure] [Wire RecordStructure] [XEdDSA]
  [Wire SignalMessagePB] [Wire PreKeySignalMessagePB]

def Call.exec (host : Host σ) : Call → σ → σ
  | processPreKeyBundle rng coins now remote bundle, t =>
    (Session.processPreKeyBundle host rng coins now remote bundle t).2
  | initializeBobSession remote p, t =>
    match Session.initializeBobSession p with
    | .error _ => t
    | .ok s => (host.storeSession remote ⟨some s, []⟩ t).2
  | encrypt plaintext remote now rng, t => (Session.encrypt host plaintext remote now rng t).2
  | decrypt m remote rng, t => (Session.decrypt host m remote rng t).2
  | decryptPreKey m remote rng, t => (Session.decryptPreKey host m remote rng t).2

def runCalls (host : Host σ) (calls : List Call) (t : σ) : σ := calls.foldl (fun t c => c.exec host t) t

/-- A bundle is processed with a base key that is allowed. -/
def Call.Allowed (A : SessionRecord → KeyPair → Prop) (records : ProtocolAddress → Option SessionRecord) : Call → Prop
  | processPreKeyBundle rng _ _ remote _ =>
    ∀ base, generateKeyPair (rng 0) = .ok base → A ((records remote).getD .fresh) base
  | _ => True

def AllowedRun (host : Host σ) (view : σ → ProtocolAddress → Option SessionRecord)
    (A : SessionRecord → KeyPair → Prop) : List Call → σ → Prop
  | [], _ => True
  | c :: calls, t => c.Allowed A (view t) ∧ AllowedRun host view A calls (c.exec host t)

lemma RecordClosed.call (hQ : ∀ a, RecordClosed A (Q a)) (hc : host.Contract view) (c : Call) {t : σ}
    (ht : EveryRecord Q (view t)) (hA : c.Allowed A (view t)) : EveryRecord Q (view (c.exec host t)) := by
  cases c with
  | processPreKeyBundle rng coins now remote bundle =>
    have htriple := (hQ remote).processPreKeyBundle hc rng coins now bundle t ⟨ht, hA⟩
    rw [Call.exec]
    cases hrun : Session.processPreKeyBundle host rng coins now remote bundle t with
    | mk r t' =>
      cases r with
      | ok a => exact htriple.1 a t' hrun
      | error e => exact htriple.2 e t' hrun
  | initializeBobSession remote p =>
    rw [Call.exec]
    cases hs : Session.initializeBobSession p with
    | error e => exact ht
    | ok s =>
      rcases hc.storeSession remote ⟨some s, []⟩ t with h | h
      · exact h ▸ ht
      · exact h ▸ ht.update remote ((hQ remote).built hs)
  | encrypt plaintext remote now rng => exact ((hQ remote).encrypt hc plaintext now rng).run ht
  | decrypt m remote rng => exact ((hQ remote).decrypt hc m rng).run ht
  | decryptPreKey m remote rng => exact ((hQ remote).decryptPreKey hc m rng).run ht

lemma RecordClosed.calls (hQ : ∀ a, RecordClosed A (Q a)) (hc : host.Contract view) (calls : List Call) {t : σ}
    (ht : EveryRecord Q (view t)) (hA : AllowedRun host view A calls t) :
    EveryRecord Q (view (runCalls host calls t)) := by
  induction calls generalizing t with
  | nil => exact ht
  | cons c calls ih => exact ih (RecordClosed.call hQ hc c ht hA.1) hA.2

end

section
variable [Hash] [X25519] [IncrementalKem] [StateCodec] [Aes] [Kem.Kyber1024] [EdwardsPoints]

/-- A property of states that the handshakes establish and that every step on a state keeps. -/
structure Closed (P : SessionState → Prop) : Prop where
  alice : ∀ {rng coins p s}, initializeAliceSession rng coins p = .ok s → P s
  bob : ∀ {p s}, initializeBobSession p = .ok s → P s
  relabelled : ∀ {s : SessionState} a b c d, P s → P { s with
    pendingPreKey := a, pendingKyberPreKey := b, localRegistrationId := c, remoteRegistrationId := d }
  sent : ∀ {s s' : SessionState} {rng out}, P s → s.pqRatchetSend rng = .ok (out, s') → P s'
  advanced : ∀ {s s' : SessionState} {ck}, P s → s.setSenderChainKey ck = .ok s' → P s'
  received : ∀ {s s' : SessionState} {m rng ptext}, P s → decryptWithState s m rng = .ok (ptext, s') → P s'

variable {P : SessionState → Prop} {host : Host σ} {view : σ → ProtocolAddress → Option SessionRecord}

lemma Closed.cleared (hP : Closed P) (s : SessionState) (hs : P s) : P s.clearUnacknowledgedPreKeyMessage :=
  hP.relabelled none none s.localRegistrationId s.remoteRegistrationId hs

variable [Wire SessionState]

lemma Closed.promoteMatching (hP : Closed P) {record record' : SessionRecord} {m : PreKeySignalMessage}
    {matched : Bool} (hrec : record.All P)
    (h : promoteMatchingPreKeySession record m = .ok (matched, record')) : record'.All P := by
  rw [promoteMatchingPreKeySession] at h
  split at h
  · cases h
    exact hrec
  · obtain ⟨found, _, h⟩ := bind_eq_ok h
    cases found with
    | none => cases h; exact hrec
    | some i =>
      obtain ⟨r, hr, h⟩ := bind_eq_ok h
      cases h
      exact hrec.promoteOldSession hP.cleared hr

lemma Closed.records (hP : Closed P) : RecordClosed (fun _ _ => True) (SessionRecord.All P) where
  fresh := SessionRecord.all_fresh
  sent := fun hrec hs hsend => hrec.withCurrent (hP.sent (hrec.current _ hs) hsend)
  advanced := fun hrec hs hset => hrec.withCurrent (hP.advanced (hrec.current _ hs) hset)
  received := fun hrec hs hdec => hrec.withCurrent (hP.received (hrec.current _ hs) hdec)
  matched := fun hrec hprom => hP.promoteMatching hrec hprom
  created := by
    rintro r m s hrec _ ⟨_, _, _, _, _, s0, registration, hs0, rfl⟩
    exact hrec.promoteState hP.cleared (hP.relabelled s0.pendingPreKey s0.pendingKyberPreKey registration
      m.registrationID (hP.bob hs0))
  started := by
    intro r rng coins now bundle identity base id s hrec _ hs
    obtain ⟨s0, pk, hs0, _, rfl⟩ := bundleSession_inv hs
    exact hrec.promoteState hP.cleared (hP.relabelled _ _ _ _ (hP.alice hs0))
  built := fun hs => SessionRecord.all_fresh.withCurrent (hP.bob hs)

variable [Wire PreKeyRecordStructure] [Wire SignedPreKeyRecordStructure] [Wire RecordStructure] [XEdDSA]
  [Wire SignalMessagePB] [Wire PreKeySignalMessagePB]

lemma Closed.calls (hP : Closed P) (hc : host.Contract view) (calls : List Call) {t : σ}
    (ht : Everywhere P (view t)) : Everywhere P (view (runCalls host calls t)) := by
  have hallowed : ∀ (calls : List Call) (t : σ), AllowedRun host view (fun _ _ => True) calls t := by
    intro calls
    induction calls with
    | nil => exact fun _ => trivial
    | cons c calls ih =>
      intro t
      refine ⟨?_, ih _⟩
      cases c with
      | processPreKeyBundle => exact fun _ _ => trivial
      | _ => exact trivial
  exact RecordClosed.calls (Q := fun _ => SessionRecord.All P) (fun _ => hP.records) hc calls ht
    (hallowed calls t)

end

end LibSignal.Session
