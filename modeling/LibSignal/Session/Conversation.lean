import LibSignal.Session.Stored

/-!
# The session with a peer as a run of steps

A call of `Encrypt`, `Decrypt` or `DecryptPreKey` on a session either leaves it alone or is one `SessionStep`
on its state (`Exchange.exec_step`).
-/

namespace LibSignal.Session
open Address (ProtocolAddress)
open Chunked (Bytes)
open Crypto Curve Lib Lib.Op Proto Protocol
open Ratchet
open Spqr (StateCodec)

/-- What a call on a session did: it sent a message, in one of its two forms, or received one. -/
inductive SessionEvent where
  | sent (out : Option SignalMessage × Option PreKeySignalMessage)
  | received (m : SignalMessage) (ptext : Bytes)

/-- The session with a peer that is current. -/
def CurrentAt (remote : ProtocolAddress) (s : SessionState)
    (records : ProtocolAddress → Option SessionRecord) : Prop :=
  ∃ r, records remote = some r ∧ r.current = some s

lemma CurrentAt.bind_current {remote : ProtocolAddress} {s : SessionState}
    {records : ProtocolAddress → Option SessionRecord} (h : CurrentAt remote s records) :
    (records remote).bind (·.current) = some s := by
  obtain ⟨r, hr, hcur⟩ := h
  rw [hr]
  exact hcur

/-! ## Steps -/

section
variable [Hash] [X25519] [IncrementalKem] [StateCodec] [Aes] [Wire SignalMessagePB] [Wire PreKeySignalMessagePB]

inductive SessionStep : SessionState → SessionEvent → SessionState → Prop
  | sent {s s1 s2 : SessionState} {senderID receiverID : PublicKey} {ck : ChainKey} {rng : Reader}
      {pqrMsg pqrKey plaintext : Bytes} {now : Int} {out : Option SignalMessage × Option PreKeySignalMessage}
      (hkeys : sendingKeys s = .ok (senderID, receiverID, ck))
      (hsend : s.pqRatchetSend rng = .ok ((pqrMsg, pqrKey), s1))
      (hbuild : buildMessage s1 senderID receiverID ck pqrMsg pqrKey plaintext now = .ok out)
      (hset : s1.setSenderChainKey ck.next = .ok s2) : SessionStep s (.sent out) s2
  | received {s s' : SessionState} {m : SignalMessage} {rng : Reader} {ptext : Bytes}
      (hdec : decryptWithState s m rng = .ok (ptext, s')) : SessionStep s (.received m ptext) s'

lemma SessionStep.parties {s s' : SessionState} {e : SessionEvent} (h : SessionStep s e s') :
    s'.parties = s.parties := by
  cases h with
  | sent hkeys hsend hbuild hset =>
    obtain ⟨_, _, _, rfl⟩ := SessionState.pqRatchetSend_inv hsend
    obtain ⟨_, _, rfl⟩ := SessionState.setSenderChainKey_inv hset
    rfl
  | received hdec => exact (decryptWithState_parties hdec).1

end

/-! ## What the calls do to the stored sessions

The stores work by value, so a call that fails leaves the sessions as they were. -/

section
variable {σ : Type} {host : Host σ} {view : σ → ProtocolAddress → Option SessionRecord} {remote : ProtocolAddress}
  {V : ProtocolAddress → Option SessionRecord}

lemma triple_load_view (hc : host.Contract view) :
    Triple (fun t => V = view t) (storeCall .loadSession (host.loadSession remote))
      (fun rec t => V = view t ∧ rec = V remote) fun _ t => V = view t := by
  refine Triple.mapErr fun t ht => ⟨fun rec t' hrun => ?_, fun e t' hrun => ?_⟩
  · obtain ⟨hview, hrec⟩ := hc.loadSession remote t _ t' hrun
    exact ⟨ht.trans hview.symm, ht ▸ hrec rec rfl⟩
  · exact ht.trans (hc.loadSession remote t _ t' hrun).1.symm

lemma triple_store_view (hv : host.ByValue view) (r : SessionRecord) :
    Triple (fun t => V = view t) (storeCall .storeSession (host.storeSession remote r))
      (fun _ t => view t = Function.update V remote (some r)) fun _ t => V = view t := by
  refine Triple.mapErr fun t ht => ⟨fun _ t' hrun => ?_, fun e t' hrun => ?_⟩
  · rw [hv.storeSession_ok _ _ _ _ hrun, ht]
  · exact ht.trans (hv.storeSession_error _ _ _ _ hrun).symm

lemma keeps_touch_view (hv : host.ByValue view) (r : SessionRecord) :
    Keeps (fun t => V = view t) (modify (host.touch remote r) : Op σ SessionErr Unit) :=
  triple_modify fun t ht => ht.trans (hv.touch_eq remote r t).symm

/-- What a failed write may have done to the sessions. -/
def FailedStore (host : Host σ) (view : σ → ProtocolAddress → Option SessionRecord) (remote : ProtocolAddress)
    (V : ProtocolAddress → Option SessionRecord) (E : SessionRecord → σ → Prop) : Prop :=
  ∀ r, Triple (fun t => V = view t) (storeCall .storeSession (host.storeSession remote r))
    (fun _ t => view t = Function.update V remote (some r)) fun _ t => E r t

lemma FailedStore.byValue (hv : host.ByValue view) : FailedStore host view remote V fun _ t => V = view t :=
  triple_store_view hv

lemma FailedStore.contract (hc : host.Contract view) (remote : ProtocolAddress) : FailedStore host view remote V
    fun r t => V = view t ∨ view t = Function.update V remote (some r) := by
  refine fun r => Triple.mapErr fun t ht => ⟨fun _ t' hrun => ?_, fun e t' hrun => ?_⟩
  · rw [hc.storeSession_ok _ _ _ _ hrun, ht]
  · rw [ht, show t' = (host.storeSession remote r t).2 by rw [hrun]]
    exact (hc.storeSession remote r t).imp_left Eq.symm

lemma triple_commitPreKey_view {E : SessionRecord → σ → Prop} (hc : host.Contract view)
    (hE : FailedStore host view remote V E) (m : PreKeySignalMessage) (matched : Bool) (working : SessionRecord) :
    Triple (fun t => V = view t) (commitPreKey host m remote matched working)
      (fun _ t => view t = Function.update V remote (some working)) fun _ t => V = view t ∨ E working t := by
  have hquiet : ∀ {α : Type} {c : StoreCall} {x : Op σ Unit α}, (∀ t, view (x t).2 = view t) →
      Triple (fun t => V = view t) (storeCall c x) (fun _ t => V = view t) fun _ t => V = view t ∨ E working t :=
    fun hx => (keeps_quiet hx).imp (fun _ h => h) (fun _ _ h => h) fun _ _ h => .inl h
  have hstore : Triple (fun t => V = view t) (storeCall .storeSession (host.storeSession remote working))
      (fun _ t => view t = Function.update V remote (some working)) fun _ t => V = view t ∨ E working t :=
    (hE working).imp (fun _ h => h) (fun _ _ h => h) fun _ _ h => .inr h
  refine Triple.bind (hquiet (hc.saveIdentity _ _)) fun _ => ?_
  split
  · refine Triple.bind (hquiet (hc.markKyberPreKeyUsed _ _ _)) fun _ => ?_
    split
    · exact Triple.bind (hquiet (hc.removePreKey _)) fun _ => hstore
    · exact hstore
  · exact hstore

variable [Hash] [X25519] [IncrementalKem] [StateCodec] [Aes] [Wire SignalMessagePB] [Wire PreKeySignalMessagePB]

/-- The current session with a peer takes a step. -/
def Works (remote : ProtocolAddress) (e : SessionEvent) (V V' : ProtocolAddress → Option SessionRecord) : Prop :=
  ∃ r s s', V remote = some r ∧ r.current = some s ∧ SessionStep s e s' ∧
    V' = Function.update V remote (some { r with current := some s' })

lemma triple_encrypt_view (hv : host.ByValue view) (remote : ProtocolAddress) (plaintext : Bytes) (now : Int)
    (rng : Reader) : Triple (fun t => V = view t) (encrypt host plaintext remote now rng)
      (fun out t => Works remote (.sent out) V (view t)) fun _ t => V = view t := by
  have hfail : ∀ (e : SessionErr) (t : σ), V = view t → V = view t := fun _ _ h => h
  refine (triple_load_view hv.toContract).bind fun rec => Triple.of_fact fun hrec => ?_
  cases rec with
  | none => exact triple_fail fun _ h => h
  | some r =>
    cases hs : r.current with
    | none => simp only [hs]; exact triple_fail fun _ h => h
    | some s =>
      simp only [hs]
      refine Triple.lift_bind hfail fun ⟨senderID, receiverID, chainKey⟩ hkeys => ?_
      refine Triple.lift_bind hfail fun ⟨⟨pqrMsg, pqrKey⟩, s1⟩ hsend => ?_
      refine Triple.bind (keeps_touch_view hv _) fun _ => ?_
      refine Triple.lift_bind hfail fun out hbuild => ?_
      refine Triple.bind (keeps_quiet (hv.isTrustedIdentity _ _ _)) fun trusted => ?_
      split
      · exact triple_fail fun _ h => h
      · refine Triple.bind (keeps_quiet (hv.saveIdentity _ _)) fun _ => ?_
        refine Triple.lift_bind hfail fun s2 hset => ?_
        refine Triple.bind (keeps_touch_view hv _) fun _ => ?_
        refine Triple.bind (triple_store_view hv _) fun _ => triple_pure fun t ht => ?_
        exact ⟨r, s, s2, hrec.symm, hs, .sent hkeys hsend hbuild hset, ht⟩

/-- The current session with a peer decrypts a message. -/
def Decrypts (remote : ProtocolAddress) (m : SignalMessage) (rng : Reader) (ptext : Bytes)
    (V V' : ProtocolAddress → Option SessionRecord) : Prop :=
  ∃ r s s', V remote = some r ∧ r.current = some s ∧ decryptWithState s m rng = .ok (ptext, s') ∧
    V' = Function.update V remote (some { r with current := some s' })

lemma Decrypts.works {m : SignalMessage} {rng : Reader} {ptext : Bytes}
    {V' : ProtocolAddress → Option SessionRecord} (h : Decrypts remote m rng ptext V V') :
    Works remote (.received m ptext) V V' := by
  obtain ⟨r, s, s', hr, hs, hdec, hV'⟩ := h
  exact ⟨r, s, s', hr, hs, .received hdec, hV'⟩

omit [Wire SignalMessagePB] [Wire PreKeySignalMessagePB] in
lemma triple_decrypt_view (hv : host.ByValue view) (remote : ProtocolAddress) (m : SignalMessage) (rng : Reader) :
    Triple (fun t => V = view t) (decrypt host m remote rng)
      (fun ptext t => Decrypts remote m rng ptext V (view t)) fun _ t => V = view t := by
  refine (triple_load_view hv.toContract).bind fun rec => Triple.of_fact fun hrec => ?_
  cases rec with
  | none => exact triple_fail fun _ h => h
  | some r =>
    cases hs : r.current with
    | none => simp only [hs]; exact triple_fail fun _ h => h
    | some s =>
      simp only [hs]
      refine Triple.lift_bind (fun _ _ h => h) fun ⟨ptext, s'⟩ hdec => ?_
      refine Triple.bind (keeps_touch_view hv _) fun _ => ?_
      refine Triple.bind (triple_store_view hv _) fun _ => triple_pure fun t ht => ?_
      exact ⟨r, s, s', hrec.symm, hs, hdec, ht⟩

variable [Kem.Kyber1024] [EdwardsPoints] [Wire SessionState]

/-- A pre-key message is decrypted with a session of the record or with a new one. -/
def Opens (remote : ProtocolAddress) (m : PreKeySignalMessage) (rng : Reader) (ptext : Bytes)
    (V V' : ProtocolAddress → Option SessionRecord) : Prop :=
  ∃ matched working s s', Prepared m ((V remote).getD .fresh) (matched, working, s) ∧
    decryptWithState s m.message rng = .ok (ptext, s') ∧
    V' = Function.update V remote (some { working with current := some s' })

section
variable [Wire PreKeyRecordStructure] [Wire SignedPreKeyRecordStructure] [Wire RecordStructure]

omit [Wire SignalMessagePB] [Wire PreKeySignalMessagePB] in
lemma triple_decryptPreKey_stores {E : SessionRecord → σ → Prop} (hc : host.Contract view)
    (hE : FailedStore host view remote V E) (m : PreKeySignalMessage) (rng : Reader) :
    Triple (fun t => V = view t) (decryptPreKey host m remote rng)
      (fun ptext t => Opens remote m rng ptext V (view t)) fun _ t => V = view t ∨
        ∃ r ptext, E r t ∧ Opens remote m rng ptext V (Function.update V remote (some r)) := by
  have hquiet : ∀ {α : Type} {x : Op σ SessionErr α} {Q : α → σ → Prop} {E' : SessionErr → σ → Prop},
      Triple (fun t => V = view t) x Q (fun _ t => V = view t) →
        Triple (fun t => V = view t) x Q fun e t => V = view t ∨ E' e t :=
    fun hx => hx.imp (fun _ h => h) (fun _ _ h => h) fun _ _ h => .inl h
  refine Triple.bind (hquiet (keeps_quiet (hc.isTrustedIdentity _ _ _))) fun trusted => ?_
  split
  · exact triple_fail fun _ h => .inl h
  · refine (hquiet (triple_load_view hc)).bind fun stored => Triple.of_fact fun hstored => ?_
    refine Triple.lift_bind (fun _ _ h => .inl h) fun working hworking => ?_
    rw [workingRecord_eq, hstored] at hworking
    cases hworking
    have hreads : host.Reads fun t => V = view t := hc.reads _
    refine (hquiet (preKeyRecord_reads hreads m _)).bind fun ⟨matched, working, s⟩ => Triple.of_fact fun h => ?_
    refine Triple.lift_bind (fun _ _ h => .inl h) fun ⟨ptext, s'⟩ hdec => ?_
    have hopens : Opens remote m rng ptext V
        (Function.update V remote (some { working with current := some s' })) :=
      ⟨matched, working, s, s', h, hdec, rfl⟩
    refine ((triple_commitPreKey_view hc hE m matched _).imp (fun _ h => h) (fun _ _ h => h) ?_).bind fun _ =>
      triple_pure fun t ht => ht ▸ hopens
    exact fun _ t h => h.imp_right fun hfailed => ⟨_, ptext, hfailed, hopens⟩

omit [Wire SignalMessagePB] [Wire PreKeySignalMessagePB] in
lemma triple_decryptPreKey_view (hv : host.ByValue view) (remote : ProtocolAddress) (m : PreKeySignalMessage)
    (rng : Reader) : Triple (fun t => V = view t) (decryptPreKey host m remote rng)
      (fun ptext t => Opens remote m rng ptext V (view t)) fun _ t => V = view t := by
  refine (triple_decryptPreKey_stores hv.toContract (.byValue hv) m rng).imp (fun _ h => h) (fun _ _ h => h) ?_
  rintro _ t (h | ⟨_, _, h, _⟩) <;> exact h

end

omit [IncrementalKem] [Aes] [Wire SignalMessagePB] [Wire PreKeySignalMessagePB] [EdwardsPoints] in
lemma triple_processPreKeyBundle_view [XEdDSA] (hv : host.ByValue view) (remote : ProtocolAddress)
    (rng : Readers) (coins : Bytes) (now : UInt64) (bundle : PreKeyBundle) :
    Triple (fun t => V = view t) (processPreKeyBundle host rng coins now remote bundle)
      (fun _ t => ∃ identity base id s, generateKeyPair (rng 0) = .ok base ∧
        bundleSession (rng 1) coins now bundle identity base id = .ok s ∧
        view t = Function.update V remote (some (((V remote).getD .fresh).promoteState s)))
      fun _ t => V = view t := by
  have hfail : ∀ (e : SessionErr) (t : σ), V = view t → V = view t := fun _ _ h => h
  refine Triple.bind (keeps_quiet (hv.isTrustedIdentity _ _ _)) fun trusted => ?_
  split_ifs
  · exact triple_fail fun _ h => h
  · exact triple_fail fun _ h => h
  · exact triple_fail fun _ h => h
  · refine (triple_load_view hv.toContract).bind fun loaded => Triple.of_fact fun hloaded => ?_
    refine Triple.bind (keeps_quiet hv.getIdentityKeyPair) fun identity => ?_
    refine Triple.bind (keeps_quiet hv.getLocalRegistrationID) fun id => ?_
    refine Triple.lift_bind hfail fun base hbase => Triple.lift_bind hfail fun s hs => ?_
    refine Triple.bind (keeps_quiet (hv.saveIdentity _ _)) fun _ => ?_
    refine Triple.bind (R := fun _ t => V = view t) (triple_modify fun t ht => ?_) fun _ => ?_
    · split
      · exact ht.trans (hv.touch_eq _ _ _).symm
      · exact ht
    · rw [hloaded]
      refine (triple_store_view hv _).imp (fun _ h => h) (fun _ t ht => ?_) fun _ _ h => h
      exact ⟨identity, base, id, s, mapError_eq_ok hbase, hs, ht⟩

end

section
variable {σ : Type} {host : Host σ} {view : σ → ProtocolAddress → Option SessionRecord} {remote : ProtocolAddress}
  {s : SessionState}
variable [Hash] [X25519] [IncrementalKem] [StateCodec] [Aes] [Wire SignalMessagePB] [Wire PreKeySignalMessagePB]

/-- The session that a step leads to is current. -/
def Stepped (remote : ProtocolAddress) (s : SessionState) (e : SessionEvent)
    (records : ProtocolAddress → Option SessionRecord) : Prop :=
  ∃ s', SessionStep s e s' ∧ CurrentAt remote s' records

lemma Works.stepped {e : SessionEvent} {V V' : ProtocolAddress → Option SessionRecord} (h : Works remote e V V')
    (hs : CurrentAt remote s V) : Stepped remote s e V' := by
  obtain ⟨r, s1, s', hr, hcur, hstep, rfl⟩ := h
  obtain ⟨r', hr', hcur'⟩ := hs
  cases hr.symm.trans hr'
  cases hcur.symm.trans hcur'
  exact ⟨s', hstep, _, Function.update_self .., rfl⟩

variable [Kem.Kyber1024] [EdwardsPoints] [Wire SessionState] [Wire PreKeyRecordStructure]
  [Wire SignedPreKeyRecordStructure] [Wire RecordStructure]

omit [IncrementalKem] [Aes] [Wire SignalMessagePB] [Wire PreKeySignalMessagePB] [Wire PreKeyRecordStructure]
  [Wire SignedPreKeyRecordStructure] [Wire RecordStructure] in
lemma Prepared.of_current {m : PreKeySignalMessage} {r working : SessionRecord} {matched : Bool}
    {s1 : SessionState} (h : Prepared m r (matched, working, s1)) (hs : r.current = some s)
    (hm : matchesPreKey m s = true) : matched = true ∧ working = r ∧ s1 = s := by
  have hprom : promoteMatchingPreKeySession r m = .ok (true, r) := by
    rw [promoteMatchingPreKeySession, hs, if_pos (show (some s).any (matchesPreKey m) = true from hm)]
  cases matched with
  | false =>
    obtain ⟨hprom', _⟩ := h
    rw [hprom] at hprom'
    cases hprom'
  | true =>
    obtain ⟨hprom', hs1, _⟩ := h
    rw [hprom] at hprom'
    cases hprom'
    cases hs.symm.trans hs1
    exact ⟨rfl, rfl, rfl⟩

omit [Wire PreKeyRecordStructure] [Wire SignedPreKeyRecordStructure] [Wire RecordStructure] in
lemma Opens.stepped {m : PreKeySignalMessage} {rng : Reader} {ptext : Bytes}
    {V V' : ProtocolAddress → Option SessionRecord} (h : Opens remote m rng ptext V V')
    (hs : CurrentAt remote s V) (hm : matchesPreKey m s = true) :
    Stepped remote s (.received m.message ptext) V' := by
  obtain ⟨matched, working, s1, s', hprepared, hdec, rfl⟩ := h
  obtain ⟨r, hr, hcur⟩ := hs
  rw [hr] at hprepared
  obtain ⟨_, _, rfl⟩ := hprepared.of_current hcur hm
  exact ⟨s', .received hdec, _, Function.update_self .., rfl⟩

/-! ## Conversations -/

inductive Exchange where
  | encrypt (plaintext : Bytes) (now : Int) (rng : Reader)
  | decrypt (m : SignalMessage) (rng : Reader)
  | decryptPreKey (m : PreKeySignalMessage) (rng : Reader)

def Exchange.exec (host : Host σ) (remote : ProtocolAddress) : Exchange → σ → Option SessionEvent × σ
  | encrypt plaintext now rng, t =>
    match Session.encrypt host plaintext remote now rng t with
    | (.ok out, t') => (some (.sent out), t')
    | (.error _, t') => (none, t')
  | decrypt m rng, t =>
    match Session.decrypt host m remote rng t with
    | (.ok ptext, t') => (some (.received m ptext), t')
    | (.error _, t') => (none, t')
  | decryptPreKey m rng, t =>
    match Session.decryptPreKey host m remote rng t with
    | (.ok ptext, t') => (some (.received m.message ptext), t')
    | (.error _, t') => (none, t')

/-- An event that a call can be the cause of. -/
def Exchange.Makes : Exchange → SessionEvent → Prop
  | encrypt _ _ _, .sent _ => True
  | decrypt m _, .received m' _ => m' = m
  | decryptPreKey m _, .received m' _ => m' = m.message
  | _, _ => False

/-- A pre-key message belongs to the session it is decrypted with. -/
def Exchange.Belongs (s : SessionState) : Exchange → Prop
  | decryptPreKey m _ => matchesPreKey m s = true
  | _ => True

def converse (host : Host σ) (remote : ProtocolAddress) : List Exchange → σ → σ
  | [], t => t
  | c :: calls, t => converse host remote calls (c.exec host remote t).2

def notes {α : Type} (host : Host σ) (view : σ → ProtocolAddress → Option SessionRecord) (remote : ProtocolAddress)
    (note : SessionState → SessionEvent → SessionState → List α) : List Exchange → σ → List α
  | [], _ => []
  | c :: calls, t =>
    (match (view t remote).bind (·.current), (c.exec host remote t).1,
        (view (c.exec host remote t).2 remote).bind (·.current) with
      | some s, some e, some s' => note s e s'
      | _, _, _ => []) ++ notes host view remote note calls (c.exec host remote t).2

/-- Every call is made in a state that allows it. -/
def Throughout (host : Host σ) (view : σ → ProtocolAddress → Option SessionRecord) (remote : ProtocolAddress)
    (P : SessionState → Exchange → Prop) : List Exchange → σ → Prop
  | [], _ => True
  | c :: calls, t => (∀ s, CurrentAt remote s (view t) → P s c) ∧
      Throughout host view remote P calls (c.exec host remote t).2

lemma Exchange.exec_step (hv : host.ByValue view) (c : Exchange) {t : σ} (hs : CurrentAt remote s (view t))
    (hbelongs : c.Belongs s) :
    ((c.exec host remote t).1 = none ∧ CurrentAt remote s (view (c.exec host remote t).2)) ∨
      ∃ e, (c.exec host remote t).1 = some e ∧ c.Makes e ∧ Stepped remote s e (view (c.exec host remote t).2) := by
  cases c with
  | encrypt plaintext now rng =>
    have htriple := triple_encrypt_view hv remote plaintext now rng t (Eq.refl (view t))
    rw [Exchange.exec]
    split
    · exact .inr ⟨_, rfl, trivial, (htriple.1 _ _ ‹_›).stepped hs⟩
    · exact .inl ⟨rfl, htriple.2 _ _ ‹_› ▸ hs⟩
  | decrypt m rng =>
    have htriple := triple_decrypt_view hv remote m rng t (Eq.refl (view t))
    rw [Exchange.exec]
    split
    · exact .inr ⟨_, rfl, rfl, (htriple.1 _ _ ‹_›).works.stepped hs⟩
    · exact .inl ⟨rfl, htriple.2 _ _ ‹_› ▸ hs⟩
  | decryptPreKey m rng =>
    have htriple := triple_decryptPreKey_view hv remote m rng t (Eq.refl (view t))
    rw [Exchange.exec]
    split
    · exact .inr ⟨_, rfl, rfl, (htriple.1 _ _ ‹_›).stepped hs hbelongs⟩
    · exact .inl ⟨rfl, htriple.2 _ _ ‹_› ▸ hs⟩

lemma converse_invariant {α : Type} (note : SessionState → SessionEvent → SessionState → List α)
    {P : SessionState → Exchange → Prop} {I : List α → SessionState → Prop} (hv : host.ByValue view)
    (hbelongs : ∀ s c, P s c → c.Belongs s)
    (hstep : ∀ {log s c e s'}, P s c → c.Makes e → I log s → SessionStep s e s' → I (log ++ note s e s') s')
    (calls : List Exchange) {t : σ} {log : List α} (hs : CurrentAt remote s (view t))
    (hcalls : Throughout host view remote P calls t) (hI : I log s) :
    ∃ s', CurrentAt remote s' (view (converse host remote calls t)) ∧
      I (log ++ notes host view remote note calls t) s' := by
  induction calls generalizing s t log with
  | nil => exact ⟨s, hs, by rwa [notes, List.append_nil]⟩
  | cons c calls ih =>
    have hP := hcalls.1 s hs
    rw [converse, notes, hs.bind_current, ← List.append_assoc]
    rcases c.exec_step hv hs (hbelongs s c hP) with ⟨hnone, hs'⟩ | ⟨e, hsome, hmakes, s', hst, hs'⟩
    · refine ih hs' hcalls.2 ?_
      rw [hnone]
      simpa only [List.append_nil] using hI
    · refine ih hs' hcalls.2 ?_
      rw [hsome, hs'.bind_current]
      exact hstep hP hmakes hI hst

end

section
variable [Hash] [X25519] [StateCodec] [Kem.Kyber1024] [EdwardsPoints]

/-- The states that sessions begin with: what `ProcessPreKeyBundle` stores, and what `DecryptPreKey` makes of
`InitializeBobSession`. -/
inductive Begun : SessionState → Prop
  | initiator {rng coins now bundle ourIdentity ourBase id s}
      (h : bundleSession rng coins now bundle ourIdentity ourBase id = .ok s) : Begun s
  | recipient {p s} (h : initializeBobSession p = .ok s) (id id' : UInt32) :
      Begun { s with localRegistrationId := id, remoteRegistrationId := id' }

lemma Begun.chains {s : SessionState} (h : Begun s) :
    s.receiverChains = [] ∨ ∃ (k : PublicKey) (ck : ChainKey), ck.index = 0 ∧
      s.receiverChains = [⟨k.serialize, [], some (chainKeyToProto ck), []⟩] := by
  cases h with
  | initiator h =>
    obtain ⟨s0, pk, hs0, _, rfl⟩ := bundleSession_inv h
    obtain ⟨ck, hck, hchains⟩ := initializeAliceSession_chains hs0
    exact .inr ⟨_, ck, hck, hchains⟩
  | recipient h id id' =>
    have hchains := initializeBobSession_chains h
    exact .inl hchains

variable [XEdDSA] [Wire SessionState]

end

end LibSignal.Session
