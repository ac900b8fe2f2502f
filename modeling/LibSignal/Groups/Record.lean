import LibSignal.Groups.Sender
import LibSignal.Lib.RecentList

/-!
# The discipline of sender-key records

A record grows by `addSenderKeyState`, and is used in place by `encrypt` and `decrypt` and by being stored and
loaded (`RecordUse`).
-/

namespace LibSignal.Groups
open Chunked (Bytes)
open Crypto Curve Proto Protocol Lib Address

namespace SenderKeyRecord

/-! ## One addition -/

def chains (r : SenderKeyRecord) : List (UInt32 × Option PublicKey) :=
  r.states.map fun s => (s.chainID, s.signingKeyPublic)

lemma filter_eraseP_of_imp {α : Type} {p q : α → Bool} (h : ∀ a, p a = true → q a = false) (l : List α) :
    (l.eraseP p).filter q = l.filter q := by
  induction l with
  | nil => rfl
  | cons a l ih =>
    cases hp : p a with
    | true => rw [List.eraseP_cons_of_pos hp, List.filter_cons_of_neg (Bool.eq_false_iff.mp (h a hp))]
    | false =>
      rw [List.eraseP_cons_of_neg (Bool.eq_false_iff.mp hp), List.filter_cons, List.filter_cons, ih]

variable {r : SenderKeyRecord}

lemma addSenderKeyState_eq (r : SenderKeyRecord) (version : UInt8) (chainID iteration : UInt32)
    (chainKey : Bytes) (pub : PublicKey) (priv : Option PrivateKey) :
    (r.addSenderKeyState version chainID iteration chainKey pub priv).states =
      r.addedState version chainID iteration chainKey pub priv ::
        (r.states.filter (·.chainID != chainID)).take (maxSenderKeyStates - 1) := by
  have hfilter := filter_eraseP_of_imp (p := isFor chainID pub) (q := fun s => s.chainID != chainID)
    (fun a ha => bne_eq_false_iff_eq.mpr (isFor_iff.mp ha).1) r.states
  change _ :: List.take _ ((r.states.eraseP (isFor chainID pub)).filter _) = _
  rw [hfilter]
  rfl

lemma chains_add (r : SenderKeyRecord) (version : UInt8) (chainID iteration : UInt32)
    (chainKey : Bytes) (pub : PublicKey) (priv : Option PrivateKey) :
    (r.addSenderKeyState version chainID iteration chainKey pub priv).chains =
      (chainID, some pub) :: (r.chains.filter (·.1 != chainID)).take (maxSenderKeyStates - 1) := by
  obtain ⟨hid, hpub⟩ := isFor_iff.mp (addedState_for r version chainID iteration chainKey pub priv)
  rw [chains, addSenderKeyState_eq, List.map_cons, hid, hpub, List.map_take, chains, List.filter_map]
  rfl

structure AddsInFront (r : SenderKeyRecord) (version : UInt8) (chainID iteration : UInt32)
    (chainKey : Bytes) (pub : PublicKey) (priv : Option PrivateKey) (r' : SenderKeyRecord) : Prop where
  front : ∃ s kept, r'.states = s :: kept ∧ s.chainID = chainID ∧ s.signingKeyPublic = some pub ∧
    kept.Sublist r.states
  held : ∀ s ∈ r.states, s.chainID = chainID → s.signingKeyPublic = some pub → r'.senderKeyState = some s
  replaced : ∀ s ∈ r.states, s.chainID = chainID → s.signingKeyPublic ≠ some pub → s ∉ r'.states ∧
    r'.senderKeyState = some (newSenderKeyState version chainID iteration chainKey pub priv)
  lost : ∀ s ∈ r.states, s.chainID ≠ chainID → s ∉ r'.states →
    chainID ∉ r.states.map (·.chainID) ∧ r.states.length = maxSenderKeyStates ∧
      r.states.getLast? = some s

lemma find?_isFor_of_mem (hdistinct : DistinctChains r) {s : SenderKeyState} (hs : s ∈ r.states)
    (pub : PublicKey) : r.states.find? (isFor s.chainID pub) =
      if s.signingKeyPublic = some pub then some s else none := by
  cases h : r.states.find? (isFor s.chainID pub) with
  | none =>
    rw [if_neg]
    intro hpub
    exact absurd (isFor_iff.mpr ⟨rfl, hpub⟩) (List.find?_eq_none.mp h s hs)
  | some s' =>
    obtain ⟨hid, hpub⟩ := isFor_iff.mp (List.find?_some h)
    obtain rfl := hdistinct.eq (List.mem_of_find?_eq_some h) hs hid
    rw [if_pos hpub]

lemma addsInFront (hdistinct : DistinctChains r) (hlen : r.states.length ≤ maxSenderKeyStates)
    (version : UInt8) (chainID iteration : UInt32) (chainKey : Bytes) (pub : PublicKey)
    (priv : Option PrivateKey) : AddsInFront r version chainID iteration chainKey pub priv
      (r.addSenderKeyState version chainID iteration chainKey pub priv) := by
  have hstates := addSenderKeyState_eq r version chainID iteration chainKey pub priv
  obtain ⟨hid, hpub⟩ := isFor_iff.mp (addedState_for r version chainID iteration chainKey pub priv)
  have hhead : (r.addSenderKeyState version chainID iteration chainKey pub priv).senderKeyState =
      some (r.addedState version chainID iteration chainKey pub priv) := rfl
  constructor
  case front =>
    exact ⟨_, _, hstates, hid, hpub, (List.take_sublist _ _).trans List.filter_sublist⟩
  case held =>
    rintro s hs rfl hkey
    rw [hhead, addedState, find?_isFor_of_mem hdistinct hs, if_pos hkey, Option.getD_some]
  case replaced =>
    rintro s hs rfl hkey
    have hfind : r.states.find? (isFor s.chainID pub) = none := by
      rw [find?_isFor_of_mem hdistinct hs, if_neg hkey]
    refine ⟨?_, by rw [hhead, addedState_new hfind]⟩
    rw [hstates, List.mem_cons]
    rintro (heq | hmem)
    · rw [heq] at hkey
      exact hkey hpub
    · have hne := (List.mem_filter.mp (List.mem_of_mem_take hmem)).2
      exact bne_iff_ne.mp hne rfl
  case lost =>
    intro s hs hne hlost
    rw [hstates, List.mem_cons, not_or] at hlost
    exact lost_last hlen hs hne hlost.2

end SenderKeyRecord

section
variable [Hash] [Aes] [XEdDSA] [Wire SenderKeyMessagePB] [Wire SenderKeyRecord]

inductive RecordUse : SenderKeyRecord → SenderKeyRecord → Prop
  | encrypted {r r' : SenderKeyRecord} (f : Faults) {sender : ProtocolAddress}
      {distributionID : DistributionID} (plaintext : Bytes) (rng : Reader) {store store' : SenderKeyStore}
      {skm : SenderKeyMessage} (hstored : storedRecord store ⟨sender, distributionID⟩ = some r)
      (hrun : encrypt f sender distributionID plaintext rng store = (.ok skm, store'))
      (hstored' : storedRecord store' ⟨sender, distributionID⟩ = some r') : RecordUse r r'
  | decrypted {r r' : SenderKeyRecord} (f : Faults) {sender : ProtocolAddress}
      {distributionID : DistributionID} (skmBytes : Bytes) {store store' : SenderKeyStore}
      {plaintext : Bytes} (hstored : storedRecord store ⟨sender, distributionID⟩ = some r)
      (hrun : decrypt f sender skmBytes store = (.ok plaintext, store'))
      (hstored' : storedRecord store' ⟨sender, distributionID⟩ = some r') : RecordUse r r'
  | reloaded {r r' : SenderKeyRecord} (h : unmarshal (marshal r) = some r') : RecordUse r r'

omit [Hash] [Aes] [XEdDSA] [Wire SenderKeyMessagePB] [Wire SenderKeyRecord] in
lemma chains_setForChainID {r : SenderKeyRecord} {chainID : UInt32} {s s' : SenderKeyState}
    (hs : r.senderKeyStateForChainID chainID = some s) (hid : s'.chainID = s.chainID)
    (hkey : s'.senderSigningKey = s.senderSigningKey) : (r.setForChainID chainID s').chains = r.chains := by
  have hsame : (s'.chainID, s'.signingKeyPublic) = (s.chainID, s.signingKeyPublic) := by
    rw [SenderKeyState.signingKeyPublic, SenderKeyState.signingKeyPublic, hid, hkey]
  obtain ⟨states⟩ := r
  rw [SenderKeyRecord.chains, SenderKeyRecord.chains, SenderKeyRecord.setForChainID]
  rw [SenderKeyRecord.senderKeyStateForChainID] at hs
  dsimp only at hs ⊢
  induction states with
  | nil => cases hs
  | cons a states ih =>
    rw [SenderKeyRecord.replaceFirst]
    by_cases ha : a.chainID = chainID
    · rw [List.find?_cons_of_pos (by simpa using ha)] at hs
      cases hs
      rw [if_pos ha, List.map_cons, List.map_cons, hsame]
    · rw [List.find?_cons_of_neg (by simpa using ha)] at hs
      rw [if_neg ha, List.map_cons, List.map_cons, ih hs]

lemma RecordUse.chains {r r' : SenderKeyRecord} (h : RecordUse r r') : r'.chains = r.chains := by
  cases h with
  | encrypted f plaintext rng hstored hrun hstored' =>
    obtain ⟨state, rest, chainKey, next, _, _, hr, _, _, _, _, _, rfl⟩ := encrypt_ok hrun
    rw [hstored] at hr
    rw [storedRecord_withRecord] at hstored'
    cases hr
    cases hstored'
    rfl
  | @decrypted f sender distributionID skmBytes _ _ _ hstored hrun hstored' =>
    obtain ⟨skm, record, state, next, _, _, _, hr, hstate, _, _, hkey, _, rfl⟩ := decrypt_ok hrun
    by_cases hdist : skm.distributionID = distributionID
    · subst hdist
      rw [hstored] at hr
      rw [storedRecord_withRecord] at hstored'
      cases hr
      cases hstored'
      obtain ⟨hid, hsign, _⟩ := senderKeyForIteration_inv hkey
      exact chains_setForChainID hstate hid hsign
    · rw [storedRecord_withRecord_ne (fun heq => hdist (congrArg SenderKeyID.distributionID heq).symm),
        hstored] at hstored'
      cases hstored'
      rfl
  | reloaded h =>
    rw [unmarshal_marshal] at h
    cases h
    rfl

/-- A run from the empty record, with the chain ids and signing keys that were added, newest first. -/
inductive RecordRun : List (UInt32 × PublicKey) → SenderKeyRecord → Prop
  | empty : RecordRun [] .newSenderKeyRecord
  | added {log : List (UInt32 × PublicKey)} {r : SenderKeyRecord} (h : RecordRun log r) (version : UInt8)
      (chainID iteration : UInt32) (chainKey : Bytes) (pub : PublicKey) (priv : Option PrivateKey) :
      RecordRun ((chainID, pub) :: log)
        (r.addSenderKeyState version chainID iteration chainKey pub priv)
  | used {log : List (UInt32 × PublicKey)} {r r' : SenderKeyRecord} (h : RecordRun log r)
      (huse : RecordUse r r') : RecordRun log r'

variable {log : List (UInt32 × PublicKey)} {r : SenderKeyRecord}

lemma RecordRun.chains (h : RecordRun log r) :
    r.chains = ((recent Prod.fst log).take maxSenderKeyStates).map fun a => (a.1, some a.2) := by
  induction h with
  | empty => rfl
  | @added log r h version chainID iteration chainKey pub priv ih =>
    rw [SenderKeyRecord.chains_add, ih, maxSenderKeyStates, take_recent_cons, List.map_cons,
      List.filter_map, List.map_take]
    rfl
  | used h huse ih => rw [huse.chains, ih]

lemma RecordRun.length_le (h : RecordRun log r) : r.states.length ≤ maxSenderKeyStates := by
  have hlen := congrArg List.length h.chains
  rw [SenderKeyRecord.chains, List.length_map, List.length_map, List.length_take] at hlen
  omega

lemma RecordRun.distinctChains (h : RecordRun log r) : DistinctChains r := by
  have hids : r.states.map (·.chainID) = ((recent Prod.fst log).take maxSenderKeyStates).map Prod.fst := by
    have hfst := congrArg (List.map Prod.fst) h.chains
    rw [SenderKeyRecord.chains, List.map_map, List.map_map] at hfst
    exact hfst
  rw [DistinctChains, hids]
  exact (recent_nodup Prod.fst log).sublist ((List.take_sublist _ _).map _)

/-- In every run from the empty record: the record holds the last five chains that were added, newest
first; a use keeps them; and an addition puts its chain in front, keeps the state that is held for the
chain and the key, replaces one of another key, and loses only the last state of a full record. -/
theorem record_discipline (h : RecordRun log r) :
    r.states.length ≤ maxSenderKeyStates ∧ (r.states.map (·.chainID)).Nodup ∧
    r.chains = ((recent Prod.fst log).take maxSenderKeyStates).map (fun a => (a.1, some a.2)) ∧
    (∀ r', RecordUse r r' → r'.chains = r.chains) ∧ ∀ version chainID iteration chainKey pub priv,
      r.AddsInFront version chainID iteration chainKey pub priv
        (r.addSenderKeyState version chainID iteration chainKey pub priv) :=
  ⟨h.length_le, h.distinctChains, h.chains, fun _ huse => huse.chains,
    SenderKeyRecord.addsInFront h.distinctChains h.length_le⟩

end

def aPublicKey : PublicKey := ⟨.djb, zeros 32, length_zeros_32⟩

/-- The theorem on a run that adds two chains and then the first one again. -/
theorem record_discipline_readded : @RecordRun zeroHash plainAes zeroXEdDSA (unaryWire _) (unaryWire _)
      [(1, aPublicKey), (2, aPublicKey), (1, aPublicKey)]
      (((SenderKeyRecord.newSenderKeyRecord.addSenderKeyState 3 1 0 [5] aPublicKey none).addSenderKeyState
        3 2 0 [6] aPublicKey none).addSenderKeyState 3 1 9 [7] aPublicKey none) ∧
    (((SenderKeyRecord.newSenderKeyRecord.addSenderKeyState 3 1 0 [5] aPublicKey none).addSenderKeyState
        3 2 0 [6] aPublicKey none).addSenderKeyState 3 1 9 [7] aPublicKey none).chains =
      [(1, some aPublicKey), (2, some aPublicKey)] := by
  let _ := zeroHash
  let _ := plainAes
  let _ := zeroXEdDSA
  let _ := unaryWire SenderKeyMessagePB
  let _ := unaryWire SenderKeyRecord
  have hrun := ((RecordRun.empty.added 3 1 0 [5] aPublicKey none).added 3 2 0 [6] aPublicKey none).added
    3 1 9 [7] aPublicKey none
  obtain ⟨_, _, hchains, _⟩ := record_discipline hrun
  exact ⟨hrun, hchains⟩

end LibSignal.Groups
