import LibSignal.Groups.Delivery

/-!
# What a sender emits

Runs of the group functions on one store (`StoreRuns`), with any calls failing.
-/

namespace LibSignal.Groups
open Chunked (Bytes)
open Crypto Curve Proto Protocol Lib Address

/-- A record has a state with a private signing key for a chain, at an iteration. -/
def OwnsIn (record : SenderKeyRecord) (chainID : UInt32) (n : Nat) : Prop :=
  ∃ s ∈ record.states, s.chainID = chainID ∧ s.signingKeyPrivate.isSome ∧
    ∃ ck, s.senderChainKey = some ck ∧ ck.iteration.toNat = n

/-- The chain ids of a record are distinct. -/
def DistinctChains (record : SenderKeyRecord) : Prop := (record.states.map (·.chainID)).Nodup

section
variable {record : SenderKeyRecord} {c : UInt32} {n n' : Nat}

lemma DistinctChains.eq {s s' : SenderKeyState} (h : DistinctChains record) (hs : s ∈ record.states)
    (hs' : s' ∈ record.states) (heq : s.chainID = s'.chainID) : s = s' :=
  List.inj_on_of_nodup_map h hs hs' heq

lemma DistinctChains.add (h : DistinctChains record) (version : UInt8) (chainID iteration : UInt32)
    (chainKey : Bytes) (pub : PublicKey) (priv : Option PrivateKey) :
    DistinctChains (record.addSenderKeyState version chainID iteration chainKey pub priv) := by
  obtain ⟨kept, hstates, hsub⟩ :=
    SenderKeyRecord.addSenderKeyState_states record version chainID iteration chainKey pub priv
  have hid := (SenderKeyRecord.isFor_iff.mp
    (SenderKeyRecord.addedState_for record version chainID iteration chainKey pub priv)).1
  rw [DistinctChains, hstates, List.map_cons, List.nodup_cons, hid]
  refine ⟨?_, List.Nodup.sublist ((hsub.trans List.filter_sublist).map _) h⟩
  intro hmem
  obtain ⟨s, hs, heq⟩ := List.mem_map.mp hmem
  have hne := (List.mem_filter.mp (hsub.mem hs)).2
  exact absurd heq (bne_iff_ne.mp hne)

lemma OwnsIn.of_add {version : UInt8} {chainID iteration : UInt32} {chainKey : Bytes} {pub : PublicKey}
    (h : OwnsIn (record.addSenderKeyState version chainID iteration chainKey pub none) c n) :
    OwnsIn record c n := by
  obtain ⟨s, hs, hid, hpriv, hck⟩ := h
  obtain ⟨kept, hstates, hsub⟩ :=
    SenderKeyRecord.addSenderKeyState_states record version chainID iteration chainKey pub none
  rw [hstates] at hs
  refine ⟨s, ?_, hid, hpriv, hck⟩
  rcases List.mem_cons.mp hs with rfl | hs
  · rw [SenderKeyRecord.addedState] at hpriv ⊢
    cases hfind : record.states.find? (SenderKeyRecord.isFor chainID pub) with
    | some s => exact List.mem_of_find?_eq_some hfind
    | none =>
      rw [hfind] at hpriv
      cases hpriv
  · exact List.mem_of_mem_filter (hsub.mem hs)

end

/-! ## Owned chains of a store -/

section
variable [Wire SenderKeyRecord] {store : SenderKeyStore} {id id' : SenderKeyID} {record : SenderKeyRecord}
  {c : UInt32} {n : Nat}

/-- A stored record has a state with a private signing key for a chain, at an iteration. -/
def Owns (store : SenderKeyStore) (id : SenderKeyID) (chainID : UInt32) (n : Nat) : Prop :=
  ∃ record, storedRecord store id = some record ∧ OwnsIn record chainID n

/-- The chain ids of every stored record are distinct. -/
def AllDistinct (store : SenderKeyStore) : Prop :=
  ∀ id record, storedRecord store id = some record → DistinctChains record

lemma AllDistinct.withRecord (h : AllDistinct store) (hrecord : DistinctChains record) (id : SenderKeyID) :
    AllDistinct (withRecord store id record) := by
  intro id' record' hstored
  by_cases hid : id' = id
  · rw [hid, storedRecord_withRecord] at hstored
    cases hstored
    exact hrecord
  · rw [storedRecord_withRecord_ne hid] at hstored
    exact h id' record' hstored

lemma Owns.of_withRecord (h : Owns (withRecord store id record) id' c n) :
    id' = id ∧ OwnsIn record c n ∨ id' ≠ id ∧ Owns store id' c n := by
  obtain ⟨record', hstored, hown⟩ := h
  by_cases hid : id' = id
  · rw [hid, storedRecord_withRecord] at hstored
    cases hstored
    exact .inl ⟨hid, hown⟩
  · rw [storedRecord_withRecord_ne hid] at hstored
    exact .inr ⟨hid, record', hstored, hown⟩

variable {f : Faults} {sender : ProtocolAddress} {store' : SenderKeyStore}

lemma owns_process {skdm : SenderKeyDistributionMessage} {u : Unit} (h : AllDistinct store)
    (hrun : processSenderKeyDistributionMessage f sender skdm store = (.ok u, store')) :
    AllDistinct store' ∧ ∀ id c n, Owns store' id c n → Owns store id c n := by
  obtain ⟨record, hrecord, rfl⟩ := processSenderKeyDistributionMessage_ok hrun
  have hdistinct : DistinctChains record := by
    rcases hrecord with hrecord | ⟨_, rfl⟩
    · exact h _ record hrecord
    · exact List.nodup_nil
  refine ⟨h.withRecord (hdistinct.add ..) _, fun id c n hown => ?_⟩
  rcases hown.of_withRecord with ⟨rfl, hin⟩ | ⟨_, hown⟩
  · have hold := hin.of_add
    rcases hrecord with hrecord | ⟨_, rfl⟩
    · exact ⟨record, hrecord, hold⟩
    · obtain ⟨s, hs, _⟩ := hold
      exact absurd hs List.not_mem_nil
  · exact hown

variable [X25519] [Wire SenderKeyDistributionMessagePB]

lemma owns_create {distributionID : DistributionID} {rng : Readers} {skdm : SenderKeyDistributionMessage}
    (h : AllDistinct store)
    (hrun : createSenderKeyDistributionMessage f sender distributionID rng store = (.ok skdm, store')) :
    AllDistinct store' ∧ ∀ id c n, Owns store' id c n → Owns store id c n ∨
      store ⟨sender, distributionID⟩ = none ∧ id = ⟨sender, distributionID⟩ ∧ c = skdm.chainID ∧ n = 0 := by
  obtain ⟨record, state, chainKey, pub, hstate, _, _, rfl, hcase⟩ := create_ok hrun
  rcases hcase with ⟨rfl, _⟩ | ⟨hnone, rfl, chainID, seed, signingKey, _, _, rfl⟩
  · exact ⟨h, fun id c n hown => .inl hown⟩
  · refine ⟨h.withRecord ?_ _, fun id c n hown => ?_⟩
    · exact List.nodup_singleton _
    rcases hown.of_withRecord with ⟨rfl, s, hs, hid, _, ck, hck, hn⟩ | ⟨_, hown⟩
    · cases hstate
      rw [List.mem_singleton.mp hs] at hid hck
      cases hck
      exact .inr ⟨hnone, rfl, hid.symm, hn.symm⟩
    · exact .inl hown

variable [Hash] [Aes] [XEdDSA] [Wire SenderKeyMessagePB]
omit [X25519] [Wire SenderKeyDistributionMessagePB]

lemma owns_encrypt {distributionID : DistributionID} {plaintext : Bytes} {rng : Reader} {m : SenderKeyMessage}
    (h : AllDistinct store) (hrun : encrypt f sender distributionID plaintext rng store = (.ok m, store')) :
    AllDistinct store' ∧ Owns store ⟨sender, distributionID⟩ m.chainID m.iteration.toNat ∧
      ∀ id c n, Owns store' id c n → id = ⟨sender, distributionID⟩ ∧ c = m.chainID ∧ n = m.iteration.toNat + 1 ∨
        c ≠ m.chainID ∧ Owns store id c n ∨ id ≠ ⟨sender, distributionID⟩ ∧ Owns store id c n := by
  obtain ⟨state, rest, chainKey, next, signingKey, ciphertext, hstored, hchain, hkey, _, hm, hnext, rfl⟩ :=
    encrypt_ok hrun
  obtain ⟨_, _, rfl⟩ := newSenderKeyMessage_inv hm
  have hdistinct := h _ _ hstored
  have hprivate : state.signingKeyPrivate.isSome := by rw [hkey]; rfl
  refine ⟨h.withRecord ?_ _, ⟨_, hstored, state, List.mem_cons_self, rfl, hprivate, chainKey, hchain,
    rfl⟩, fun id c n hown => ?_⟩
  · exact hdistinct
  rcases hown.of_withRecord with ⟨rfl, s, hs, hid, hpriv, ck, hck, hn⟩ | ⟨hid, hown⟩
  · rcases List.mem_cons.mp hs with rfl | hs
    · cases hck
      exact .inl ⟨rfl, hid.symm, by rw [← hn]; exact next_iteration hnext⟩
    · -- the states behind the first one are on other chains
      have hne : c ≠ state.chainID := by
        intro heq
        have hnotin := (List.nodup_cons.mp hdistinct).1
        exact hnotin (List.mem_map.mpr ⟨s, hs, hid.trans heq⟩)
      exact .inr (.inl ⟨hne, _, hstored, s, List.mem_cons_of_mem _ hs, hid, hpriv, ck, hck, hn⟩)
  · exact .inr (.inr ⟨hid, hown⟩)

lemma owns_decrypt {bytes plaintext : Bytes} (h : AllDistinct store)
    (hrun : decrypt f sender bytes store = (.ok plaintext, store')) :
    AllDistinct store' ∧ ∃ skm record state pub, deserializeSenderKeyMessage bytes = .ok skm ∧
      storedRecord store ⟨sender, skm.distributionID⟩ = some record ∧
      record.senderKeyStateForChainID skm.chainID = some state ∧ state.signingKeyPublic = some pub ∧
      skm.verifySignature pub = true ∧ ∀ id c n, Owns store' id c n → ∃ n0 ≤ n, Owns store id c n0 ∧
        ((state.signingKeyPrivate.isSome → ∀ n1, Owns store ⟨sender, skm.distributionID⟩ skm.chainID n1 →
          skm.iteration.toNat < n1) → n0 = n) := by
  obtain ⟨skm, record, state, next, pub, mk, hparse, hstored, hstate, hpub, hverify, hmk, _, rfl⟩ :=
    decrypt_ok hrun
  obtain ⟨hid, hsigning, ck, ck', hck, hck', hle, hpast⟩ := senderKeyForIteration_inv hmk
  have hfound := SenderKeyRecord.chainID_of_find hstate
  have hmem : state ∈ record.states := List.mem_of_find?_eq_some hstate
  have hprivate : next.signingKeyPrivate = state.signingKeyPrivate := by
    rw [SenderKeyState.signingKeyPrivate, SenderKeyState.signingKeyPrivate, hsigning]
  refine ⟨h.withRecord ?_ _, skm, record, state, pub, hparse, hstored, hstate, hpub, hverify,
    fun id c n hown => ?_⟩
  · rw [DistinctChains, SenderKeyRecord.setForChainID, SenderKeyRecord.map_replaceFirst (hid.trans hfound)]
    exact h _ record hstored
  · rcases hown.of_withRecord with ⟨rfl, s, hs, hc, hpriv, ck1, hck1, hn⟩ | ⟨_, hown⟩
    · rcases SenderKeyRecord.mem_replaceFirst hs with rfl | hs
      · rw [hck'] at hck1
        cases hck1
        rw [hprivate] at hpriv
        have hown : Owns store ⟨sender, skm.distributionID⟩ c ck.iteration.toNat :=
          ⟨record, hstored, state, hmem, hid.symm.trans hc, hpriv, ck, hck, rfl⟩
        refine ⟨ck.iteration.toNat, by rw [← hn]; exact hle, hown, fun hold => ?_⟩
        have hc' : c = skm.chainID := hc.symm.trans (hid.trans hfound)
        rw [hc'] at hown
        rw [← hn, hpast (UInt32.lt_iff_toNat_lt.mpr (hold hpriv _ hown))]
      · exact ⟨n, le_rfl, ⟨record, hstored, s, hs, hc, hpriv, ck1, hck1, hn⟩, fun _ => rfl⟩
    · exact ⟨n, le_rfl, hown, fun _ => rfl⟩

end

section
variable [Wire SenderKeyRecord] [X25519] [Wire SenderKeyDistributionMessagePB] [Hash] [Aes] [XEdDSA]
  [Wire SenderKeyMessagePB]

/-- The runs of the group functions on one store, from an empty one on, in which the decryptions that
succeed are allowed ones. The indices are the store, the messages that were encrypted and the ids of the
chains that were created, in order. -/
inductive StoreRuns (allowed : SenderKeyStore → List SenderKeyMessage → ProtocolAddress → Bytes → Prop) :
    SenderKeyStore → List SenderKeyMessage → List UInt32 → Prop
  | empty : StoreRuns allowed (fun _ => none) [] []
  | created {store store' sent generated f sender distributionID rng skdm} :
      StoreRuns allowed store sent generated → store ⟨sender, distributionID⟩ = none →
      createSenderKeyDistributionMessage f sender distributionID rng store = (.ok skdm, store') →
      StoreRuns allowed store' sent (generated ++ [skdm.chainID])
  | announced {store store' sent generated f sender distributionID rng skdm} :
      StoreRuns allowed store sent generated → store ⟨sender, distributionID⟩ ≠ none →
      createSenderKeyDistributionMessage f sender distributionID rng store = (.ok skdm, store') →
      StoreRuns allowed store' sent generated
  | encrypted {store store' sent generated f sender distributionID plaintext rng m} :
      StoreRuns allowed store sent generated →
      encrypt f sender distributionID plaintext rng store = (.ok m, store') →
      StoreRuns allowed store' (sent ++ [m]) generated
  | decrypted {store store' sent generated f sender bytes plaintext} :
      StoreRuns allowed store sent generated → allowed store sent sender bytes →
      decrypt f sender bytes store = (.ok plaintext, store') → StoreRuns allowed store' sent generated
  | processed {store store' sent generated f sender skdm} : StoreRuns allowed store sent generated →
      processSenderKeyDistributionMessage f sender skdm store = (.ok (), store') →
      StoreRuns allowed store' sent generated
  | createFailed {store store' sent generated f sender distributionID rng e} :
      StoreRuns allowed store sent generated →
      createSenderKeyDistributionMessage f sender distributionID rng store = (.error e, store') →
      StoreRuns allowed store' sent generated
  | encryptFailed {store store' sent generated f sender distributionID plaintext rng e} :
      StoreRuns allowed store sent generated →
      encrypt f sender distributionID plaintext rng store = (.error e, store') →
      StoreRuns allowed store' sent generated
  | decryptFailed {store store' sent generated f sender bytes e} : StoreRuns allowed store sent generated →
      decrypt f sender bytes store = (.error e, store') → StoreRuns allowed store' sent generated
  | processFailed {store store' sent generated f sender skdm e} : StoreRuns allowed store sent generated →
      processSenderKeyDistributionMessage f sender skdm store = (.error e, store') →
      StoreRuns allowed store' sent generated

/-- Every message that verifies under the key of an owned chain is one that was encrypted. -/
def Genuine (store : SenderKeyStore) (sent : List SenderKeyMessage) (sender : ProtocolAddress)
    (bytes : Bytes) : Prop :=
  ∀ skm record state pub, deserializeSenderKeyMessage bytes = .ok skm →
    storedRecord store ⟨sender, skm.distributionID⟩ = some record →
    record.senderKeyStateForChainID skm.chainID = some state → state.signingKeyPrivate.isSome →
    state.signingKeyPublic = some pub → skm.verifySignature pub = true →
    ∃ m ∈ sent, m.chainID = skm.chainID ∧ m.iteration = skm.iteration

/-! ## No message twice -/

section
omit [X25519] [Wire SenderKeyDistributionMessagePB] [Hash] [Aes] [XEdDSA] [Wire SenderKeyMessagePB]

/-- Owned chains are created ones, each in one record, and ahead of all messages sent on them. -/
structure Issued (store : SenderKeyStore) (sent : List SenderKeyMessage) (generated : List UInt32) :
    Prop where
  distinct : AllDistinct store
  place : ∀ id id' c n n', Owns store id c n → Owns store id' c n' → id = id'
  owned : ∀ id c n, Owns store id c n → c ∈ generated ∧ ∀ m ∈ sent, m.chainID = c → m.iteration.toNat < n
  known : ∀ m ∈ sent, m.chainID ∈ generated
  once : (sent.map fun m => (m.chainID, m.iteration)).Nodup

variable {store store' : SenderKeyStore} {sent : List SenderKeyMessage} {generated : List UInt32}

lemma not_owns_empty {id : SenderKeyID} {c : UInt32} {n : Nat} : ¬ Owns (fun _ => none) id c n := by
  rintro ⟨_, hstored, _⟩
  cases hstored

lemma issued_empty : Issued (fun _ => none) [] [] where
  distinct := fun _ _ h => by cases h
  place := fun _ _ _ _ _ h => absurd h not_owns_empty
  owned := fun _ _ _ h => absurd h not_owns_empty
  known := fun _ h => absurd h List.not_mem_nil
  once := List.nodup_nil

lemma Issued.forward (h : Issued store sent generated) (hdistinct : AllDistinct store')
    (hforward : ∀ id c n, Owns store' id c n → ∃ n0 ≤ n, Owns store id c n0) :
    Issued store' sent generated where
  distinct := hdistinct
  place := by
    intro id id' c n n' ho ho'
    obtain ⟨m, _, ho⟩ := hforward id c n ho
    obtain ⟨m', _, ho'⟩ := hforward id' c n' ho'
    exact h.place id id' c m m' ho ho'
  owned := by
    intro id c n ho
    obtain ⟨n0, hle, ho⟩ := hforward id c n ho
    obtain ⟨hgen, hsent⟩ := h.owned id c n0 ho
    exact ⟨hgen, fun m hm hc => lt_of_lt_of_le (hsent m hm hc) hle⟩
  known := h.known
  once := h.once

lemma Issued.create (h : Issued store sent generated) {id0 : SenderKeyID} {c0 : UInt32}
    (hfresh : c0 ∉ generated) (hdistinct : AllDistinct store')
    (howns : ∀ id c n, Owns store' id c n → Owns store id c n ∨ id = id0 ∧ c = c0 ∧ n = 0) :
    Issued store' sent (generated ++ [c0]) where
  distinct := hdistinct
  place := by
    intro id id' c n n' ho ho'
    rcases howns id c n ho with ho | ⟨rfl, rfl, rfl⟩
    · rcases howns id' c n' ho' with ho' | ⟨rfl, rfl, rfl⟩
      · exact h.place id id' c n n' ho ho'
      · exact absurd (h.owned id c n ho).1 hfresh
    · rcases howns id' c n' ho' with ho' | ⟨rfl, _⟩
      · exact absurd (h.owned id' c n' ho').1 hfresh
      · rfl
  owned := by
    intro id c n ho
    rcases howns id c n ho with ho | ⟨rfl, rfl, rfl⟩
    · exact ⟨List.mem_append_left _ (h.owned id c n ho).1, (h.owned id c n ho).2⟩
    · refine ⟨List.mem_append_right _ (List.mem_singleton_self _), fun m hm hc => ?_⟩
      exact absurd (hc ▸ h.known m hm) hfresh
  known := fun m hm => List.mem_append_left _ (h.known m hm)
  once := h.once

lemma Issued.send (h : Issued store sent generated) {id0 : SenderKeyID} {m0 : SenderKeyMessage}
    (hown : Owns store id0 m0.chainID m0.iteration.toNat) (hdistinct : AllDistinct store')
    (howns : ∀ id c n, Owns store' id c n → id = id0 ∧ c = m0.chainID ∧ n = m0.iteration.toNat + 1 ∨
      c ≠ m0.chainID ∧ Owns store id c n ∨ id ≠ id0 ∧ Owns store id c n) :
    Issued store' (sent ++ [m0]) generated := by
  obtain ⟨hgen, hbefore⟩ := h.owned _ _ _ hown
  -- another record does not own the chain of the message
  have howns' : ∀ id c n, Owns store' id c n → id = id0 ∧ c = m0.chainID ∧ n = m0.iteration.toNat + 1 ∨
      c ≠ m0.chainID ∧ Owns store id c n := by
    intro id c n ho
    rcases howns id c n ho with hcase | hcase | ⟨hid, ho⟩
    · exact .inl hcase
    · exact .inr hcase
    · refine .inr ⟨fun hc => hid ?_, ho⟩
      exact h.place id id0 _ _ _ (hc ▸ ho) hown
  refine ⟨hdistinct, ?_, ?_, ?_, ?_⟩
  · intro id id' c n n' ho ho'
    rcases howns' id c n ho with ⟨rfl, rfl, _⟩ | ⟨hc, ho⟩
    · rcases howns' id' _ n' ho' with ⟨rfl, _⟩ | ⟨hc, _⟩
      · rfl
      · exact absurd rfl hc
    · rcases howns' id' c n' ho' with ⟨_, hc', _⟩ | ⟨_, ho'⟩
      · exact absurd hc' hc
      · exact h.place id id' c n n' ho ho'
  · intro id c n ho
    rcases howns' id c n ho with ⟨_, rfl, rfl⟩ | ⟨hc, ho⟩
    · refine ⟨hgen, fun m hm hmc => ?_⟩
      rcases List.mem_append.mp hm with hm | hm
      · exact Nat.lt_succ_of_lt (hbefore m hm hmc)
      · rw [List.mem_singleton.mp hm]
        exact Nat.lt_succ_self _
    · obtain ⟨hgen', hsent⟩ := h.owned id c n ho
      refine ⟨hgen', fun m hm hmc => ?_⟩
      rcases List.mem_append.mp hm with hm | hm
      · exact hsent m hm hmc
      · rw [List.mem_singleton.mp hm] at hmc
        exact absurd hmc.symm hc
  · intro m hm
    rcases List.mem_append.mp hm with hm | hm
    · exact h.known m hm
    · rw [List.mem_singleton.mp hm]
      exact hgen
  · rw [List.map_append, List.map_singleton, List.nodup_append]
    refine ⟨h.once, List.nodup_singleton _, ?_⟩
    intro p hp q hq heq
    obtain ⟨m, hm, rfl⟩ := List.mem_map.mp hp
    rw [List.mem_singleton.mp hq, Prod.mk.injEq] at heq
    exact absurd (hbefore m hm heq.1) (by rw [heq.2]; exact lt_irrefl _)

end

variable {store : SenderKeyStore} {sent : List SenderKeyMessage} {generated : List UInt32}
  {allowed : SenderKeyStore → List SenderKeyMessage → ProtocolAddress → Bytes → Prop}

lemma StoreRuns.issued (h : StoreRuns allowed store sent generated) (hfresh : generated.Nodup) :
    Issued store sent generated := by
  induction h with
  | empty => exact issued_empty
  | @created _ _ _ generated _ _ _ _ skdm _ _ hrun ih =>
    obtain ⟨hnodup, _, hnew⟩ := List.nodup_append.mp hfresh
    have hissued := ih hnodup
    obtain ⟨hdistinct, howns⟩ := owns_create hissued.distinct hrun
    have hnotin : skdm.chainID ∉ generated := fun hmem => hnew _ hmem _ (List.mem_singleton_self _) rfl
    exact hissued.create hnotin hdistinct fun id c n ho => (howns id c n ho).imp_right And.right
  | announced _ hheld hrun ih =>
    obtain ⟨hdistinct, howns⟩ := owns_create (ih hfresh).distinct hrun
    refine (ih hfresh).forward hdistinct fun id c n ho => ?_
    rcases howns id c n ho with ho | ⟨hnone, _⟩
    · exact ⟨n, le_refl n, ho⟩
    · exact absurd hnone hheld
  | encrypted _ hrun ih =>
    obtain ⟨hdistinct, hown, howns⟩ := owns_encrypt (ih hfresh).distinct hrun
    exact (ih hfresh).send hown hdistinct howns
  | decrypted _ _ hrun ih =>
    obtain ⟨hdistinct, _, _, _, _, _, _, _, _, _, howns⟩ := owns_decrypt (ih hfresh).distinct hrun
    refine (ih hfresh).forward hdistinct fun id c n ho => ?_
    obtain ⟨n0, hle, ho, _⟩ := howns id c n ho
    exact ⟨n0, hle, ho⟩
  | processed _ hrun ih =>
    obtain ⟨hdistinct, howns⟩ := owns_process (ih hfresh).distinct hrun
    exact (ih hfresh).forward hdistinct fun id c n ho => ⟨n, le_refl n, howns id c n ho⟩
  | createFailed _ hrun ih =>
    rw [create_atomic _ _ _ _ _ _ _ hrun]
    exact ih hfresh
  | encryptFailed _ hrun ih =>
    rw [encrypt_atomic _ _ _ _ _ _ _ _ hrun]
    exact ih hfresh
  | decryptFailed _ hrun ih =>
    rw [decrypt_atomic _ _ _ _ _ _ hrun]
    exact ih hfresh
  | processFailed _ hrun ih =>
    rw [processSenderKeyDistributionMessage_atomic _ _ _ _ _ _ hrun]
    exact ih hfresh

/-! ## In sequence -/

def iterationsOf (sent : List SenderKeyMessage) (c : UInt32) : List Nat :=
  (sent.filter fun m => m.chainID == c).map fun m => m.iteration.toNat

section
omit [X25519] [Wire SenderKeyDistributionMessagePB] [Hash] [Aes] [XEdDSA] [Wire SenderKeyMessagePB]

omit [Wire SenderKeyRecord] in
lemma iterationsOf_append_self (sent : List SenderKeyMessage) (m : SenderKeyMessage) :
    iterationsOf (sent ++ [m]) m.chainID = iterationsOf sent m.chainID ++ [m.iteration.toNat] := by
  simp [iterationsOf]

omit [Wire SenderKeyRecord] in
lemma iterationsOf_append_of_ne {m : SenderKeyMessage} {c : UInt32} (h : c ≠ m.chainID) :
    iterationsOf (sent ++ [m]) c = iterationsOf sent c := by
  have hne : ¬ m.chainID = c := fun heq => h heq.symm
  simp [iterationsOf, hne]

omit [Wire SenderKeyRecord] in
lemma iterationsOf_eq_nil {c : UInt32} (h : ∀ m ∈ sent, m.chainID ≠ c) : iterationsOf sent c = [] := by
  rw [iterationsOf, List.filter_eq_nil_iff.mpr fun m hm hc => h m hm (beq_iff_eq.mp hc), List.map_nil]

/-- The messages of each chain were sent at iterations `0, 1, 2, …`, up to the owner's current one. -/
structure InSequence (store : SenderKeyStore) (sent : List SenderKeyMessage) : Prop where
  owned : ∀ id c n, Owns store id c n → iterationsOf sent c = List.range n
  all : ∀ c, ∃ k, iterationsOf sent c = List.range k

variable {store' : SenderKeyStore}

lemma InSequence.same (h : InSequence store sent)
    (hsame : ∀ id c n, Owns store' id c n → Owns store id c n) : InSequence store' sent :=
  ⟨fun id c n ho => h.owned id c n (hsame id c n ho), h.all⟩

lemma InSequence.create (h : InSequence store sent) (hissued : Issued store sent generated) {c0 : UInt32}
    (hfresh : c0 ∉ generated) (howns : ∀ id c n, Owns store' id c n → Owns store id c n ∨ c = c0 ∧ n = 0) :
    InSequence store' sent := by
  refine ⟨fun id c n ho => ?_, h.all⟩
  rcases howns id c n ho with ho | ⟨rfl, rfl⟩
  · exact h.owned id c n ho
  · rw [List.range_zero]
    exact iterationsOf_eq_nil fun m hm hc => hfresh (hc ▸ hissued.known m hm)

lemma InSequence.send (h : InSequence store sent) (hissued : Issued store sent generated)
    {id0 : SenderKeyID} {m0 : SenderKeyMessage} (hown : Owns store id0 m0.chainID m0.iteration.toNat)
    (howns : ∀ id c n, Owns store' id c n → id = id0 ∧ c = m0.chainID ∧ n = m0.iteration.toNat + 1 ∨
      c ≠ m0.chainID ∧ Owns store id c n ∨ id ≠ id0 ∧ Owns store id c n) :
    InSequence store' (sent ++ [m0]) := by
  have hchain : iterationsOf (sent ++ [m0]) m0.chainID = List.range (m0.iteration.toNat + 1) := by
    rw [iterationsOf_append_self, h.owned _ _ _ hown, List.range_succ]
  refine ⟨fun id c n ho => ?_, fun c => ?_⟩
  · rcases howns id c n ho with ⟨_, rfl, rfl⟩ | ⟨hc, ho⟩ | ⟨hid, ho⟩
    · exact hchain
    · rw [iterationsOf_append_of_ne hc]
      exact h.owned id c n ho
    · have hc : c ≠ m0.chainID := fun hc => hid (hissued.place id id0 _ _ _ (hc ▸ ho) hown)
      rw [iterationsOf_append_of_ne hc]
      exact h.owned id c n ho
  · by_cases hc : c = m0.chainID
    · exact ⟨_, hc ▸ hchain⟩
    · rw [iterationsOf_append_of_ne hc]
      exact h.all c

end

lemma StoreRuns.inSequence (h : StoreRuns Genuine store sent generated) (hfresh : generated.Nodup) :
    InSequence store sent := by
  induction h with
  | empty => exact ⟨fun _ _ _ ho => absurd ho not_owns_empty, fun _ => ⟨0, rfl⟩⟩
  | created hbefore _ hrun ih =>
    obtain ⟨hnodup, _, hnew⟩ := List.nodup_append.mp hfresh
    have hissued := hbefore.issued hnodup
    obtain ⟨_, howns⟩ := owns_create hissued.distinct hrun
    refine (ih hnodup).create hissued (fun hmem => hnew _ hmem _ (List.mem_singleton_self _) rfl)
      fun id c n ho => ?_
    rcases howns id c n ho with ho | ⟨_, _, hc, hn⟩
    · exact .inl ho
    · exact .inr ⟨hc, hn⟩
  | announced hbefore hheld hrun ih =>
    obtain ⟨_, howns⟩ := owns_create (hbefore.issued hfresh).distinct hrun
    refine (ih hfresh).same fun id c n ho => ?_
    rcases howns id c n ho with ho | ⟨hnone, _⟩
    · exact ho
    · exact absurd hnone hheld
  | encrypted hbefore hrun ih =>
    obtain ⟨_, hown, howns⟩ := owns_encrypt (hbefore.issued hfresh).distinct hrun
    exact (ih hfresh).send (hbefore.issued hfresh) hown howns
  | decrypted hbefore hgenuine hrun ih =>
    have hissued := hbefore.issued hfresh
    obtain ⟨_, skm, record, state, pub, hparse, hstored, hstate, hpub, hverify, howns⟩ :=
      owns_decrypt hissued.distinct hrun
    refine (ih hfresh).same fun id c n ho => ?_
    obtain ⟨n0, _, ho, hsame⟩ := howns id c n ho
    -- a message on an owned chain was sent, so the chain is already past it
    have hpast : n0 = n := hsame fun hprivate n1 hown => by
      obtain ⟨m, hm, hc, hiter⟩ := hgenuine skm record state pub hparse hstored hstate hprivate hpub hverify
      rw [← hiter]
      exact (hissued.owned _ _ _ hown).2 m hm hc
    exact hpast ▸ ho
  | processed hbefore hrun ih =>
    exact (ih hfresh).same (owns_process (hbefore.issued hfresh).distinct hrun).2
  | createFailed _ hrun ih =>
    rw [create_atomic _ _ _ _ _ _ _ hrun]
    exact ih hfresh
  | encryptFailed _ hrun ih =>
    rw [encrypt_atomic _ _ _ _ _ _ _ _ hrun]
    exact ih hfresh
  | decryptFailed _ hrun ih =>
    rw [decrypt_atomic _ _ _ _ _ _ hrun]
    exact ih hfresh
  | processFailed _ hrun ih =>
    rw [processSenderKeyDistributionMessage_atomic _ _ _ _ _ _ hrun]
    exact ih hfresh

omit [X25519] [Wire SenderKeyDistributionMessagePB] in
lemma encrypt_last (f : Faults) (sender : ProtocolAddress) (distributionID : DistributionID)
    (plaintext : Bytes) (rng : Reader) {state : SenderKeyState} {rest : List SenderKeyState}
    {chainKey : SenderChainKey} (hstored : storedRecord store ⟨sender, distributionID⟩ = some ⟨state :: rest⟩)
    (hchain : state.senderChainKey = some chainKey) (hlast : chainKey.iteration = 0xFFFFFFFF) :
    ∃ e, encrypt f sender distributionID plaintext rng store = (.error e, store) ∧
      (f.load = false → state.signingKeyPrivate.isSome → (rng.read 64).isSome → e = .chainTooLong) := by
  obtain ⟨e, herror⟩ : ∃ e, encrypt f sender distributionID plaintext rng store = (.error e, store) := by
    cases hrun : encrypt f sender distributionID plaintext rng store with
    | mk r store' =>
      cases r with
      | ok m =>
        obtain ⟨s, _, ck, next, _, _, hstored', hchain', _, _, _, hnext, _⟩ := encrypt_ok hrun
        rw [hstored] at hstored'
        cases hstored'
        rw [hchain] at hchain'
        cases hchain'
        rw [next_last hlast] at hnext
        cases hnext
      | error e => exact ⟨e, by rw [encrypt_atomic _ _ _ _ _ _ _ _ hrun]⟩
  refine ⟨e, herror, fun hload hprivate hread => ?_⟩
  obtain ⟨signingKey, hkey⟩ := Option.isSome_iff_exists.mp hprivate
  obtain ⟨random, hrandom⟩ := Option.isSome_iff_exists.mp hread
  obtain ⟨ciphertext, _, hrun⟩ := encrypt_eq plaintext rng hload hstored hchain hkey
  obtain ⟨m, hm⟩ : ∃ m, newSenderKeyMessage distributionID state.chainID chainKey.iteration
      (some ciphertext) rng signingKey = .ok m := by
    rw [newSenderKeyMessage, calculateSignature, readKeyBytes, hrandom]
    exact ⟨_, rfl⟩
  rw [hrun, hm] at herror
  change (Op.lift chainKey.next >>= _) store = _ at herror
  rw [next_last hlast] at herror
  cases herror
  rfl

/-! ## A message on an own chain -/

variable {n : Nat}

omit [XEdDSA] [Wire SenderKeyRecord] [Wire SenderKeyMessagePB] [Wire SenderKeyDistributionMessagePB] [Aes] in
lemma senderKeyForIteration_stateAt (ch : SenderChain) (h : n + 1 < 2 ^ 32) :
    senderKeyForIteration (ch.stateAt n) n.toUInt32 = .ok (messageKeyAt ch.seed n, ch.stateAt (n + 1)) := by
  have hself : n.toUInt32 - n.toUInt32 = 0 := by rw [sub_self]
  change (if n.toUInt32 > n.toUInt32 then _ else if n.toUInt32 - n.toUInt32 > maxForwardJumps then _
    else (ratchetTo n.toUInt32 (n.toUInt32 - n.toUInt32).toNat (ch.stateAt n) (chainAt ch.seed n)
      >>= fun r => r.2.next >>= fun next => pure (r.2.senderMessageKey, r.1.setSenderChainKey next))
      : Except GroupErr (SenderMessageKey × SenderKeyState)) = _
  rw [if_neg (UInt32.lt_irrefl _), hself, if_neg (by decide)]
  change (chainAt ch.seed n).next >>= _ = _
  rw [next_chainAt _ h]
  rfl

omit [Wire SenderKeyDistributionMessagePB] in
lemma decrypt_stateAt (haes : Aes.Inverse) (hsign : XEdDSA.Complete) {ch : SenderChain}
    {sender : ProtocolAddress} {distributionID : DistributionID} {plaintext : Bytes} {m : SenderKeyMessage}
    (hm : ch.Message distributionID n plaintext m)
    (hstored : storedRecord store ⟨sender, distributionID⟩ = some ⟨[ch.stateAt n]⟩) {f : Faults}
    (hload : f.load = false) (hstore : f.store = false) : decrypt f sender m.serialized store =
      (.ok plaintext, withRecord store ⟨sender, distributionID⟩ ⟨[ch.stateAt (n + 1)]⟩) := by
  have hfind : (⟨[ch.stateAt n]⟩ : SenderKeyRecord).senderKeyStateForChainID ch.chainID
      = some (ch.stateAt n) := List.find?_cons_of_pos (beq_self_eq_true _)
  have hheld : heldState store ⟨sender, distributionID⟩ ch.chainID = some (ch.stateAt n) := by
    rw [heldState, hstored]
    exact hfind
  have htrack : Tracking ch ⟨sender, distributionID⟩ n store (.start n) :=
    ⟨⟨_, hheld, ch.stateAt_public n, rfl, rfl, rfl, Nat.lt_of_succ_lt hm.1⟩, Window.sound_start _ _⟩
  obtain ⟨record, s, hrecord, hs, _, _, _, hrun⟩ := htrack.decrypt_eq hsign hm hload
  rw [hstored] at hrecord
  cases hrecord
  rw [hfind] at hs
  cases hs
  obtain ⟨_, _, _, _, hct⟩ := hm.fields
  rw [hrun, senderKeyForIteration_stateAt ch hm.1]
  change (Op.lift ((decryptCBC m.ciphertext (messageKeyAt ch.seed n).cipherKey
    (messageKeyAt ch.seed n).iv).mapError decryptionError) >>= _) store = _
  rw [decryptCBC_encryptCBC haes hct]
  refine (Op.bind_run_ok (storeSenderKeyRecord_run hstore)).trans ?_
  have hset : (⟨[ch.stateAt n]⟩ : SenderKeyRecord).setForChainID ch.chainID (ch.stateAt (n + 1))
      = ⟨[ch.stateAt (n + 1)]⟩ := congrArg SenderKeyRecord.mk (if_pos rfl)
  rw [hset]
  rfl

omit [Wire SenderKeyDistributionMessagePB] in
lemma exists_run_at {f : Faults} (hload : f.load = false) (hstore : f.store = false) {rng : Reader}
    {random : Bytes} (hrng : rng.read 64 = some random) {ch : SenderChain} {sender : ProtocolAddress}
    {distributionID : DistributionID} {skdms : List SenderKeyDistributionMessage}
    [Wire SenderKeyDistributionMessagePB] (hrun : StoreRuns allowed store [] generated)
    (hon : OnChain ch sender distributionID store [] skdms) (hn : n < 2 ^ 32) :
    ∃ store sent msgs, StoreRuns allowed store sent generated ∧
      OnChain ch sender distributionID store msgs skdms ∧ msgs.length = n := by
  induction n with
  | zero => exact ⟨store, [], [], hrun, hon, rfl⟩
  | succ n ih =>
    obtain ⟨store, sent, msgs, hrun, hon, hlen⟩ := ih (Nat.lt_of_succ_lt hn)
    obtain ⟨m, store', hencrypt⟩ := hon.encrypt_run hload hstore hrng (hlen ▸ hn) []
    refine ⟨store', sent ++ [m], msgs ++ [([], m)], hrun.encrypted hencrypt, hon.encrypted hencrypt, ?_⟩
    rw [List.length_append, hlen, List.length_singleton]

/-- What a sender emits: along every run with fresh chain ids no two messages share a chain id and an iteration,
and if only messages that were sent verify under the sender's own chains, the iterations of a chain are `0, 1,
2, …` in the order of sending. -/
theorem sender_key_unique (h : StoreRuns (fun _ _ _ _ => True) store sent generated)
    (hfresh : generated.Nodup) : (sent.map fun m => (m.chainID, m.iteration)).Nodup ∧
    (StoreRuns Genuine store sent generated →
      ∀ c, ∃ k, (sent.filter fun m => m.chainID == c).map (fun m => m.iteration.toNat) = List.range k) ∧
    (∀ f sender distributionID plaintext rng e store',
      encrypt f sender distributionID plaintext rng store = (.error e, store') → store' = store) ∧
    (∀ f sender bytes e store', decrypt f sender bytes store = (.error e, store') → store' = store) ∧
    (∀ f sender distributionID plaintext rng state rest chainKey,
      storedRecord store ⟨sender, distributionID⟩ = some ⟨state :: rest⟩ →
      state.senderChainKey = some chainKey → chainKey.iteration = 0xFFFFFFFF →
      ∃ e, encrypt f sender distributionID plaintext rng store = (.error e, store) ∧
        (f.load = false → state.signingKeyPrivate.isSome → (rng.read 64).isSome → e = .chainTooLong)) := by
  refine ⟨(h.issued hfresh).once, fun hgenuine => (hgenuine.inSequence hfresh).all, ?_, ?_, ?_⟩
  · intro f sender distributionID plaintext rng e store' hrun
    exact encrypt_atomic _ _ _ _ _ _ _ _ hrun
  · intro f sender bytes e store' hrun
    exact decrypt_atomic _ _ _ _ _ _ hrun
  · intro f sender distributionID plaintext rng state rest chainKey hstored hchain hlast
    exact encrypt_last f sender distributionID plaintext rng hstored hchain hlast

end

/-- The theorem on a run that creates a chain and sends one message. -/
theorem sender_key_unique_first : ∃ (store : SenderKeyStore) (m : SenderKeyMessage) (c : UInt32),
    @StoreRuns (unaryWire _) oneX25519 (unaryWire _) zeroHash plainAes zeroXEdDSA (unaryWire _)
      (fun _ _ _ _ => True) store [m] [c] ∧ [c].Nodup ∧
    ∀ f sender bytes e store', @decrypt (unaryWire _) zeroHash plainAes zeroXEdDSA (unaryWire _) f sender
      bytes store = (.error e, store') → store' = store := by
  let _ := zeroHash
  let _ := oneX25519
  let _ := plainAes
  let _ := zeroXEdDSA
  let _ := unaryWire SenderKeyRecord
  let _ := unaryWire SenderKeyMessagePB
  let _ := unaryWire SenderKeyDistributionMessagePB
  obtain ⟨skdm, store1, hcreate⟩ : ∃ skdm store1, createSenderKeyDistributionMessage noFaults anAddress
      aDistribution (fun _ => zeroReader) (fun _ => none) = (.ok skdm, store1) := ⟨_, _, rfl⟩
  obtain ⟨ch, hon⟩ := onChain_created rfl hcreate
  obtain ⟨m, store2, hencrypt⟩ := @OnChain.encrypt_run _ _ _ _ _ _ _ _ _ _ _ _ _ hon noFaults rfl rfl
    zeroReader (zeros 64) rfl (by decide) [1, 2, 3]
  have hrun : StoreRuns (fun _ _ _ _ => True) store2 [m] [skdm.chainID] :=
    .encrypted (.created .empty rfl hcreate) hencrypt
  obtain ⟨_, _, _, hdecrypt, _⟩ := sender_key_unique hrun (List.nodup_singleton _)
  exact ⟨store2, m, skdm.chainID, hrun, List.nodup_singleton _, hdecrypt⟩

def failingReader : Reader := ⟨fun _ => none, fun _ _ h => by cases h⟩

/-- A sender that decrypts a message signed with its own key which it has not sent skips an iteration: the first
message it sends has iteration 1. -/
theorem sender_skips_and_random_source : (∃ (store : SenderKeyStore) (m : SenderKeyMessage) (c : UInt32),
      @StoreRuns (unaryWire _) oneX25519 (unaryWire _) zeroHash plainAes zeroXEdDSA (unaryWire _)
        (fun _ _ _ _ => True) store [m] [c] ∧ [c].Nodup ∧ m.iteration = 1) ∧
    ∃ (store : SenderKeyStore) (sent : List SenderKeyMessage) (c : UInt32) (state : SenderKeyState)
      (chainKey : SenderChainKey),
      @StoreRuns (unaryWire _) oneX25519 (unaryWire _) zeroHash plainAes zeroXEdDSA (unaryWire _)
        (fun _ _ _ _ => True) store sent [c] ∧ [c].Nodup ∧
      @storedRecord (unaryWire _) store ⟨anAddress, aDistribution⟩ = some ⟨[state]⟩ ∧
      state.senderChainKey = some chainKey ∧ chainKey.iteration = 0xFFFFFFFF ∧
      @encrypt (unaryWire _) zeroHash plainAes zeroXEdDSA (unaryWire _) noFaults anAddress aDistribution []
        failingReader store = (.error (.building .randomSource), store) := by
  let _ := zeroHash
  let _ := oneX25519
  let _ := plainAes
  let _ := zeroXEdDSA
  let _ := unaryWire SenderKeyRecord
  let _ := unaryWire SenderKeyMessagePB
  let _ := unaryWire SenderKeyDistributionMessagePB
  obtain ⟨skdm, store1, hcreate⟩ : ∃ skdm store1, createSenderKeyDistributionMessage noFaults anAddress
      aDistribution (fun _ => zeroReader) (fun _ => none) = (.ok skdm, store1) := ⟨_, _, rfl⟩
  have hcreated : StoreRuns (fun _ _ _ _ => True) store1 [] [skdm.chainID] := .created .empty rfl hcreate
  obtain ⟨ch, hon⟩ := onChain_created rfl hcreate
  refine ⟨?_, ?_⟩
  · -- a message of the first iteration, signed with the sender's key in another run
    obtain ⟨m0, store0, hother⟩ := @OnChain.encrypt_run _ _ _ _ _ _ _ _ _ _ _ _ _ hon noFaults rfl rfl
      zeroReader (zeros 64) rfl (by decide) [1, 2, 3]
    have hm0 := (hon.encrypted hother).messages 0 _ _ rfl
    have hdecrypt := decrypt_stateAt plainAes_inverse (fun _ _ _ _ _ => rfl) hm0 hon.stored (f := noFaults)
      rfl rfl
    -- the chain is now at iteration 1
    have hon1 : OnChain ch anAddress aDistribution (withRecord store1 ⟨anAddress, aDistribution⟩
        ⟨[ch.stateAt 1]⟩) [([1, 2, 3], m0)] [] := by
      refine ⟨show 1 < 2 ^ 32 by decide, storedRecord_withRecord .., fun k plaintext m hk => ?_, fun _ h => ?_⟩
      · exact (hon.encrypted hother).messages k plaintext m hk
      · exact absurd h List.not_mem_nil
    obtain ⟨m1, store2, hencrypt⟩ := @OnChain.encrypt_run _ _ _ _ _ _ _ _ _ _ _ _ _ hon1 noFaults rfl rfl
      zeroReader (zeros 64) rfl (show 2 < 2 ^ 32 by decide) []
    obtain ⟨_, _, _, hiter, _⟩ := ((hon1.encrypted hencrypt).messages 1 _ _ rfl).fields
    exact ⟨store2, m1, skdm.chainID, (hcreated.decrypted trivial hdecrypt).encrypted hencrypt,
      List.nodup_singleton _, hiter⟩
  · obtain ⟨store, sent, msgs, hrun, hlast, hlen⟩ := exists_run_at (f := noFaults) rfl rfl
      (show zeroReader.read 64 = some (zeros 64) from rfl) hcreated hon
      (show 2 ^ 32 - 1 < 2 ^ 32 by decide)
    refine ⟨store, sent, skdm.chainID, ch.stateAt msgs.length, chainAt ch.seed msgs.length, hrun,
      List.nodup_singleton _, hlast.stored, rfl, congrArg Nat.toUInt32 hlen, ?_⟩
    obtain ⟨ciphertext, _, hencrypt⟩ := encrypt_eq (f := noFaults) [] failingReader rfl hlast.stored rfl
      (ch.stateAt_private _)
    rw [hencrypt]
    rfl

end LibSignal.Groups
