import LibSignal.Crypto.Aes
import LibSignal.Lib.SkipWindow
import LibSignal.Protocol.SenderKey

/-!
# Sender keys

Model of `groups/state.go` and of `senderKeyForIteration` of `groups/cipher.go`: the chain key that is
advanced by HMAC, the cache of skipped message keys and the record of states of a sender.
-/

namespace LibSignal.Groups
open Chunked (Bytes)
open Crypto Curve Proto Protocol Lib

def maxSenderKeyStates : Nat := 5
def maxForwardJumps : UInt32 := 25000
def maxMessageKeys : Nat := 2000
def senderKeyMessageVersion : UInt8 := 3
def chainKeyLen : Nat := 32
def cipherKeyLen : Nat := 32
def ivLen : Nat := 16
def messageKeySeed : UInt8 := 0x01
def chainKeySeed : UInt8 := 0x02
def senderMessageKeyInfo : Bytes := ascii "WhisperGroup"

inductive SessionDefect where
  | emptyState
  | missingChainKey
  | missingPrivateSigningKey
  | missingSigningKey
  | cipher (cause : CryptoErr)
deriving DecidableEq, Repr

inductive GroupErr where
  | loading
  | storing
  | decoding
  | noSenderKeyState
  | unknownChainID (chainID : UInt32)
  | invalidSenderKeySession (what : SessionDefect)
  | invalidSession (what : SessionDefect)
  | chainTooLong
  | building (cause : CurveErr)
  | unrecognizedMessageVersion (message chain : UInt32)
  | signatureInvalid
  | duplicateMessage (iteration current : UInt32)
  | tooFar (iteration current : UInt32)
  | decryptionFailed (cause : CryptoErr)
  | parse (cause : ProtocolErr)
  | readingChainID
  | readingChainKey
  | generatingSigningKey (cause : CurveErr)
deriving DecidableEq, Repr

structure SenderChainKey where
  iteration : UInt32
  chainKey : Bytes
deriving DecidableEq, Repr

structure SenderMessageKey where
  iteration : UInt32
  seed : Bytes
  iv : Bytes
  cipherKey : Bytes
deriving DecidableEq, Repr

structure CachedKey where
  iteration : UInt32
  seed : Bytes
deriving DecidableEq, Repr

def SenderMessageKey.asProtobuf (m : SenderMessageKey) : CachedKey := ⟨m.iteration, m.seed⟩

section
variable [Hash]

def newSenderMessageKey (iteration : UInt32) (seed : Bytes) : SenderMessageKey :=
  let derived := hkdfSHA256 seed [] senderMessageKeyInfo (ivLen + cipherKeyLen)
  { iteration := iteration, seed := seed, iv := derived.take ivLen,
    cipherKey := (derived.drop ivLen).take cipherKeyLen }

lemma length_newSenderMessageKey (iteration : UInt32) (seed : Bytes) :
    (newSenderMessageKey iteration seed).cipherKey.length = 32 ∧
      (newSenderMessageKey iteration seed).iv.length = blockSize := by
  have hlen : (hkdfSHA256 seed [] senderMessageKeyInfo (ivLen + cipherKeyLen)).length = 48 :=
    hkdfSHA256_length _ _ _ _ (by decide)
  constructor
  · rw [newSenderMessageKey, List.length_take, List.length_drop, hlen]
    rfl
  · rw [newSenderMessageKey, List.length_take, hlen]
    rfl

namespace SenderChainKey

def derivative (c : SenderChainKey) (label : UInt8) : Bytes := hmacSHA256 c.chainKey [label]

def next (c : SenderChainKey) : Except GroupErr SenderChainKey :=
  if c.iteration = 0xFFFFFFFF then .error .chainTooLong
  else .ok ⟨c.iteration + 1, c.derivative chainKeySeed⟩

def senderMessageKey (c : SenderChainKey) : SenderMessageKey :=
  newSenderMessageKey c.iteration (c.derivative messageKeySeed)

end SenderChainKey
end

/-! ## States -/

structure SigningKey where
  pub : Bytes
  priv : Bytes
deriving DecidableEq, Repr

structure SenderKeyState where
  version : UInt32
  chainID : UInt32
  senderChainKey : Option SenderChainKey
  senderSigningKey : Option SigningKey
  senderMessageKeys : List CachedKey
deriving DecidableEq, Repr

def newSenderKeyState (messageVersion : UInt8) (chainID iteration : UInt32) (chainKey : Bytes)
    (signatureKey : PublicKey) (signaturePrivate : Option PrivateKey) : SenderKeyState :=
  { version := messageVersion.toUInt32, chainID := chainID, senderChainKey := some ⟨iteration, chainKey⟩,
    senderSigningKey := some ⟨signatureKey.serialize, (signaturePrivate.map (·.data)).getD []⟩,
    senderMessageKeys := [] }

namespace SenderKeyState

def messageVersion (s : SenderKeyState) : UInt32 :=
  if s.version ≠ 0 then s.version else senderKeyMessageVersion.toUInt32

def setSenderChainKey (s : SenderKeyState) (ck : SenderChainKey) : SenderKeyState :=
  { s with senderChainKey := some ck }

/-- Cache a skipped message key; the oldest ones beyond the bound go. -/
def addSenderMessageKey (s : SenderKeyState) (smk : SenderMessageKey) : SenderKeyState :=
  { s with senderMessageKeys := keepLast maxMessageKeys (s.senderMessageKeys ++ [smk.asProtobuf]) }

def removeSenderMessageKey [Hash] (s : SenderKeyState) (iteration : UInt32) :
    Option (SenderMessageKey × SenderKeyState) :=
  match s.senderMessageKeys.find? (·.iteration == iteration) with
  | some smk =>
    some (newSenderMessageKey smk.iteration smk.seed,
      { s with senderMessageKeys := s.senderMessageKeys.eraseP (·.iteration == iteration) })
  | none => none

def signingKeyPublic (s : SenderKeyState) : Option PublicKey :=
  s.senderSigningKey.bind fun sk => (deserializePublicKey sk.pub).toOption

def signingKeyPrivate (s : SenderKeyState) : Option PrivateKey :=
  s.senderSigningKey.bind fun sk =>
    if sk.priv.length = 0 then none else (deserializePrivateKey sk.priv).toOption

end SenderKeyState

section
variable [Hash]

def ratchetTo (iteration : UInt32) : Nat → SenderKeyState → SenderChainKey →
    Except GroupErr (SenderKeyState × SenderChainKey)
  | 0, state, chainKey => .ok (state, chainKey)
  | fuel + 1, state, chainKey =>
    if chainKey.iteration < iteration then do
      let next ← chainKey.next
      ratchetTo iteration fuel (state.addSenderMessageKey chainKey.senderMessageKey) next
    else .ok (state, chainKey)

def senderKeyForIteration (state : SenderKeyState) (iteration : UInt32) :
    Except GroupErr (SenderMessageKey × SenderKeyState) :=
  match state.senderChainKey with
  | none => .error (.invalidSenderKeySession .missingChainKey)
  | some chainKey =>
    let current := chainKey.iteration
    if current > iteration then
      match state.removeSenderMessageKey iteration with
      | some r => .ok r
      | none => .error (.duplicateMessage iteration current)
    else if iteration - current > maxForwardJumps then .error (.tooFar iteration current)
    else do
      let (state, chainKey) ← ratchetTo iteration (iteration - current).toNat state chainKey
      let nextChainKey ← chainKey.next
      return (chainKey.senderMessageKey, state.setSenderChainKey nextChainKey)

end

/-! ## Records -/

structure SenderKeyRecord where
  states : List SenderKeyState
deriving DecidableEq, Repr

namespace SenderKeyRecord

def newSenderKeyRecord : SenderKeyRecord := ⟨[]⟩

def senderKeyState (r : SenderKeyRecord) : Option SenderKeyState := r.states.head?

def senderKeyStateForChainID (r : SenderKeyRecord) (chainID : UInt32) : Option SenderKeyState :=
  r.states.find? (·.chainID == chainID)

def setHead (r : SenderKeyRecord) (state : SenderKeyState) : SenderKeyRecord := ⟨state :: r.states.tail⟩

def replaceFirst (chainID : UInt32) (state : SenderKeyState) : List SenderKeyState → List SenderKeyState
  | [] => []
  | s :: rest => if s.chainID = chainID then state :: rest else s :: replaceFirst chainID state rest

def setForChainID (r : SenderKeyRecord) (chainID : UInt32) (state : SenderKeyState) : SenderKeyRecord :=
  ⟨replaceFirst chainID state r.states⟩

def isFor (chainID : UInt32) (signatureKey : PublicKey) (s : SenderKeyState) : Bool :=
  s.chainID == chainID && (s.signingKeyPublic.any fun pub => pub.equal signatureKey)

def removeState (r : SenderKeyRecord) (chainID : UInt32) (signatureKey : PublicKey) :
    Option SenderKeyState × SenderKeyRecord :=
  (r.states.find? (isFor chainID signatureKey), ⟨r.states.eraseP (isFor chainID signatureKey)⟩)

def removeStatesWithChainID (r : SenderKeyRecord) (chainID : UInt32) : SenderKeyRecord :=
  ⟨r.states.filter (·.chainID != chainID)⟩

def addSenderKeyState (r : SenderKeyRecord) (messageVersion : UInt8) (chainID iteration : UInt32)
    (chainKey : Bytes) (signatureKey : PublicKey) (signaturePrivate : Option PrivateKey) :
    SenderKeyRecord :=
  let (existing, r) := r.removeState chainID signatureKey
  let r := r.removeStatesWithChainID chainID
  let state := existing.getD
    (newSenderKeyState messageVersion chainID iteration chainKey signatureKey signaturePrivate)
  -- the loop drops states from the tail until there is room
  ⟨state :: r.states.take (maxSenderKeyStates - 1)⟩

end SenderKeyRecord

namespace SenderKeyRecord

variable {chainID : UInt32} {s st : SenderKeyState}

lemma isFor_iff {pub : PublicKey} :
    isFor chainID pub s = true ↔ s.chainID = chainID ∧ s.signingKeyPublic = some pub := by
  rw [isFor, Bool.and_eq_true, beq_iff_eq, Option.any_eq_true]
  refine and_congr_right fun _ => ⟨?_, fun h => ⟨pub, h, PublicKey.equal_iff.mpr rfl⟩⟩
  rintro ⟨key, hkey, heq⟩
  rw [hkey, PublicKey.equal_iff.mp heq]

lemma find?_replaceFirst {l : List SenderKeyState} (h : l.find? (·.chainID == chainID) = some s)
    (hst : st.chainID = chainID) : (replaceFirst chainID st l).find? (·.chainID == chainID) = some st := by
  have hpos : (st.chainID == chainID) = true := beq_iff_eq.mpr hst
  induction l with
  | nil => cases h
  | cons a l ih =>
    rw [replaceFirst]
    by_cases ha : a.chainID = chainID
    · rw [if_pos ha]
      exact List.find?_cons_of_pos hpos
    · have hskip : ∀ t, (a :: t).find? (·.chainID == chainID) = t.find? (·.chainID == chainID) :=
        fun t => List.find?_cons_of_neg fun h => ha (beq_iff_eq.mp h)
      rw [if_neg ha, hskip]
      rw [hskip] at h
      exact ih h

lemma senderKeyStateForChainID_set {r : SenderKeyRecord} (h : r.senderKeyStateForChainID chainID = some s)
    (hst : st.chainID = chainID) : (r.setForChainID chainID st).senderKeyStateForChainID chainID = some st :=
  find?_replaceFirst h hst

lemma mem_replaceFirst {l : List SenderKeyState} (h : s ∈ replaceFirst chainID st l) : s = st ∨ s ∈ l := by
  induction l with
  | nil => exact absurd h List.not_mem_nil
  | cons a l ih =>
    rw [replaceFirst] at h
    split at h
    · exact (List.mem_cons.mp h).imp id (List.mem_cons_of_mem a)
    · rcases List.mem_cons.mp h with rfl | h
      · exact .inr List.mem_cons_self
      · exact (ih h).imp id (List.mem_cons_of_mem a)

lemma map_replaceFirst (hst : st.chainID = chainID) (l : List SenderKeyState) :
    (replaceFirst chainID st l).map (·.chainID) = l.map (·.chainID) := by
  induction l with
  | nil => rfl
  | cons a l ih =>
    rw [replaceFirst]
    split
    · rename_i ha
      rw [List.map_cons, List.map_cons, hst, ha]
    · rw [List.map_cons, List.map_cons, ih]

section
variable {r : SenderKeyRecord} {version : UInt8} {chainID iteration : UInt32} {chainKey : Bytes}
  {pub : PublicKey} {priv : Option PrivateKey}

def addedState (r : SenderKeyRecord) (version : UInt8) (chainID iteration : UInt32) (chainKey : Bytes)
    (pub : PublicKey) (priv : Option PrivateKey) : SenderKeyState :=
  (r.states.find? (isFor chainID pub)).getD
    (newSenderKeyState version chainID iteration chainKey pub priv)

lemma addSenderKeyState_states (r : SenderKeyRecord) (version : UInt8) (chainID iteration : UInt32)
    (chainKey : Bytes) (pub : PublicKey) (priv : Option PrivateKey) : ∃ kept : List SenderKeyState,
    (r.addSenderKeyState version chainID iteration chainKey pub priv).states =
      r.addedState version chainID iteration chainKey pub priv :: kept ∧
    kept.Sublist (r.states.filter (·.chainID != chainID)) := by
  refine ⟨_, rfl, (List.take_sublist _ _).trans ?_⟩
  exact (List.eraseP_sublist).filter _

lemma newSenderKeyState_for : isFor chainID pub (newSenderKeyState version chainID iteration chainKey pub priv)
    = true := by
  refine isFor_iff.mpr ⟨rfl, ?_⟩
  change (deserializePublicKey pub.serialize).toOption = _
  rw [deserializePublicKey_serialize]
  rfl

lemma addedState_for (r : SenderKeyRecord) (version : UInt8) (chainID iteration : UInt32)
    (chainKey : Bytes) (pub : PublicKey) (priv : Option PrivateKey) :
    isFor chainID pub (r.addedState version chainID iteration chainKey pub priv) = true := by
  rw [addedState]
  cases h : r.states.find? (isFor chainID pub) with
  | none => exact newSenderKeyState_for
  | some s => exact List.find?_some h

lemma senderKeyStateForChainID_add :
    (r.addSenderKeyState version chainID iteration chainKey pub priv).senderKeyStateForChainID chainID =
      some (r.addedState version chainID iteration chainKey pub priv) := by
  obtain ⟨kept, hstates, _⟩ := addSenderKeyState_states r version chainID iteration chainKey pub priv
  rw [senderKeyStateForChainID, hstates]
  exact List.find?_cons_of_pos (beq_iff_eq.mpr (isFor_iff.mp (addedState_for ..)).1)

variable {s : SenderKeyState}

lemma chainID_of_find (h : r.senderKeyStateForChainID chainID = some s) : s.chainID = chainID := by
  have hfound := List.find?_some h
  exact beq_iff_eq.mp hfound

lemma addedState_new (h : r.states.find? (isFor chainID pub) = none) :
    r.addedState version chainID iteration chainKey pub priv =
      newSenderKeyState version chainID iteration chainKey pub priv := by
  rw [addedState, h, Option.getD_none]

lemma find?_isFor (h : r.senderKeyStateForChainID chainID = some s) (hpub : s.signingKeyPublic = some pub) :
    r.states.find? (isFor chainID pub) = some s := by
  have hid : s.chainID = chainID := chainID_of_find h
  obtain ⟨_, as, bs, hsplit, hbefore⟩ := List.find?_eq_some_iff_append.mp h
  rw [List.find?_eq_some_iff_append]
  refine ⟨isFor_iff.mpr ⟨hid, hpub⟩, as, bs, hsplit, fun a ha => ?_⟩
  have hne := hbefore a ha
  simp only [Bool.not_eq_true', beq_eq_false_iff_ne] at hne
  rw [Bool.not_eq_true', Bool.eq_false_iff]
  exact fun hfor => hne (isFor_iff.mp hfor).1

lemma find?_eraseP_of_ne {α : Type} {p q : α → Bool} (h : ∀ a, p a = true → q a = false) (l : List α) :
    (l.eraseP p).find? q = l.find? q := by
  induction l with
  | nil => rfl
  | cons a l ih =>
    cases hp : p a with
    | true =>
      rw [List.eraseP_cons_of_pos hp, List.find?_cons_of_neg (Bool.eq_false_iff.mp (h a hp))]
    | false =>
      rw [List.eraseP_cons_of_neg (Bool.eq_false_iff.mp hp), List.find?_cons, List.find?_cons, ih]

lemma held_add {id' : UInt32} {pub' : PublicKey} {s' : SenderKeyState}
    (h : r.senderKeyStateForChainID chainID = some s) (hpub : s.signingKeyPublic = some pub)
    (h' : (r.addSenderKeyState version id' iteration chainKey pub' priv).senderKeyStateForChainID chainID
      = some s') (hpub' : s'.signingKeyPublic = some pub) : s' = s := by
  by_cases hid : id' = chainID
  · -- the same chain id: the state in front is found, so its signing key is the given one
    subst hid
    rw [senderKeyStateForChainID_add] at h'
    cases h'
    have hkey : pub' = pub := by
      have hfor := isFor_iff.mp (addedState_for r version id' iteration chainKey pub' priv)
      rw [hpub'] at hfor
      exact (Option.some.inj hfor.2).symm
    rw [addedState, hkey, find?_isFor h hpub, Option.getD_some]
  · -- another chain id: what is dropped for it has that id, and the eviction leaves a beginning
    have hfront : ¬ (r.addedState version id' iteration chainKey pub' priv).chainID = chainID := by
      rw [(isFor_iff.mp (addedState_for ..)).1]
      exact hid
    rw [senderKeyStateForChainID] at h'
    change (r.addedState version id' iteration chainKey pub' priv ::
      List.take _ ((r.states.eraseP (isFor id' pub')).filter (·.chainID != id'))).find?
        (·.chainID == chainID) = some s' at h'
    rw [List.find?_cons_of_neg (by simpa using hfront)] at h'
    have hfound := (List.take_prefix _ _).find?_eq_some h'
    rw [List.find?_filter] at hfound
    have hcongr : ∀ a : SenderKeyState,
        (decide ((a.chainID != id') = true ∧ (a.chainID == chainID) = true)) = (a.chainID == chainID) := by
      intro a
      rw [Bool.eq_iff_iff, decide_eq_true_iff, bne_iff_ne, beq_iff_eq]
      exact ⟨fun h => h.2, fun h => ⟨fun h' => hid (h'.symm.trans h), h⟩⟩
    simp only [hcongr] at hfound
    rw [find?_eraseP_of_ne] at hfound
    · exact Option.some.inj (hfound.symm.trans h)
    · intro a ha
      rw [(isFor_iff.mp ha).1]
      exact beq_false_of_ne hid

end

end SenderKeyRecord

section
variable [Hash]

def chainKeyAt (seed : Bytes) : Nat → Bytes
  | 0 => seed
  | n + 1 => hmacSHA256 (chainKeyAt seed n) [chainKeySeed]

def chainAt (seed : Bytes) (n : Nat) : SenderChainKey := ⟨n.toUInt32, chainKeyAt seed n⟩

def messageKeyAt (seed : Bytes) (n : Nat) : SenderMessageKey := (chainAt seed n).senderMessageKey

def cachedAt (seed : Bytes) (n : Nat) : CachedKey := (messageKeyAt seed n).asProtobuf

variable {k n : Nat} {s : SenderKeyState} {seed : Bytes} {w : Window}

lemma next_chainAt (seed : Bytes) (h : n + 1 < 2 ^ 32) : (chainAt seed n).next = .ok (chainAt seed (n + 1)) := by
  have hne : ¬ (chainAt seed n).iteration = 0xFFFFFFFF := by
    change ¬ n.toUInt32 = 0xFFFFFFFF
    rw [← UInt32.toNat_inj, toNat_toUInt32 (by omega)]
    change ¬ n = 2 ^ 32 - 1
    omega
  have hsucc : n.toUInt32 + 1 = (n + 1).toUInt32 := by
    rw [← UInt32.toNat_inj, UInt32.toNat_add, toNat_toUInt32 (by omega), toNat_toUInt32 h]
    exact Nat.mod_eq_of_lt h
  rw [SenderChainKey.next, if_neg hne]
  change Except.ok (SenderChainKey.mk (n.toUInt32 + 1) _) = _
  rw [hsucc]
  rfl

lemma next_last {c : SenderChainKey} (h : c.iteration = 0xFFFFFFFF) : c.next = .error .chainTooLong :=
  if_pos h

lemma next_iteration {c c' : SenderChainKey} (h : c.next = .ok c') :
    c'.iteration.toNat = c.iteration.toNat + 1 := by
  rw [SenderChainKey.next] at h
  split at h
  · cases h
  · rename_i hlast
    cases h
    have hlt := c.iteration.toNat_lt
    have hne : c.iteration.toNat ≠ 2 ^ 32 - 1 := fun heq => hlast (UInt32.toNat_inj.mp heq)
    change (c.iteration + 1).toNat = _
    rw [UInt32.toNat_add]
    exact Nat.mod_eq_of_lt (by change c.iteration.toNat + 1 < 2 ^ 32; omega)

lemma ratchetTo_inv {iteration : UInt32} {fuel : Nat} {s' : SenderKeyState} {ck ck' : SenderChainKey}
    (h : ratchetTo iteration fuel s ck = .ok (s', ck')) :
    (∃ keys, s' = { s with senderMessageKeys := keys }) ∧ ck.iteration.toNat ≤ ck'.iteration.toNat := by
  induction fuel generalizing s ck with
  | zero => cases h; exact ⟨⟨_, rfl⟩, le_rfl⟩
  | succ fuel ih =>
    rw [ratchetTo] at h
    split at h
    · obtain ⟨next, hnext, h⟩ := bind_eq_ok h
      obtain ⟨⟨keys, hkeys⟩, hle⟩ := ih h
      rw [SenderKeyState.addSenderMessageKey] at hkeys
      refine ⟨⟨keys, hkeys⟩, ?_⟩
      rw [next_iteration hnext] at hle
      omega
    · cases h
      exact ⟨⟨_, rfl⟩, le_rfl⟩

lemma senderKeyForIteration_inv {s' : SenderKeyState} {iteration : UInt32} {mk : SenderMessageKey}
    (h : senderKeyForIteration s iteration = .ok (mk, s')) :
    s'.chainID = s.chainID ∧ s'.senderSigningKey = s.senderSigningKey ∧
      ∃ ck ck', s.senderChainKey = some ck ∧ s'.senderChainKey = some ck' ∧
        ck.iteration.toNat ≤ ck'.iteration.toNat ∧ (iteration < ck.iteration → ck' = ck) := by
  rw [senderKeyForIteration] at h
  split at h
  · cases h
  · rename_i ck hck
    dsimp only at h
    split at h
    · split at h
      · rename_i r hremove
        cases h
        rw [SenderKeyState.removeSenderMessageKey] at hremove
        split at hremove
        · cases hremove
          exact ⟨rfl, rfl, ck, ck, hck, hck, le_rfl, fun _ => rfl⟩
        · cases hremove
      · cases h
    · rename_i hpast
      split at h
      · cases h
      · obtain ⟨⟨s1, ck1⟩, hloop, h⟩ := bind_eq_ok h
        obtain ⟨next, hnext, h⟩ := bind_eq_ok h
        cases h
        obtain ⟨⟨keys, rfl⟩, hle⟩ := ratchetTo_inv hloop
        refine ⟨rfl, rfl, ck, next, hck, rfl, ?_, fun hlt => absurd hlt hpast⟩
        rw [next_iteration hnext]
        exact Nat.le_succ_of_le hle

/-! ## States that track a window -/

/-- The chain key and the cached keys of a state are those of a receive window over the chain of a seed. -/
structure Tracks (seed : Bytes) (w : Window) (s : SenderKeyState) : Prop where
  chain : s.senderChainKey = some (chainAt seed w.next)
  keys : s.senderMessageKeys = w.cache.map (cachedAt seed)
  bound : w.next < 2 ^ 32

lemma ratchetTo_skipMany (seed : Bytes) (hkeys : s.senderMessageKeys = w.cache.map (cachedAt seed))
    (hbound : w.next + n < 2 ^ 32) : ratchetTo (w.next + n).toUInt32 n s (chainAt seed w.next) =
      .ok ({ s with senderMessageKeys := (w.skipMany maxMessageKeys n).cache.map (cachedAt seed) },
        chainAt seed (w.next + n)) := by
  induction n generalizing w s with
  | zero => rw [ratchetTo, Window.skipMany, ← hkeys]; rfl
  | succ n ih =>
    have hlt : (chainAt seed w.next).iteration < (w.next + (n + 1)).toUInt32 :=
      (toUInt32_lt (by omega) hbound).mpr (by omega)
    have hstep : (s.addSenderMessageKey (chainAt seed w.next).senderMessageKey).senderMessageKeys =
        (w.skip maxMessageKeys).cache.map (cachedAt seed) := by
      rw [SenderKeyState.addSenderMessageKey, Window.skip_cache, map_keepLast, List.map_append, ← hkeys,
        List.map_singleton, cachedAt, messageKeyAt]
    have hnext : w.next + (n + 1) = (w.skip maxMessageKeys).next + n := by
      rw [Window.skip_next]
      omega
    rw [ratchetTo, if_pos hlt, next_chainAt seed (by omega), ok_bind, hnext, Window.skipMany,
      ← Window.skip_next maxMessageKeys, ih hstep (by omega), SenderKeyState.addSenderMessageKey]

lemma Tracks.removeSenderMessageKey (h : Tracks seed w s) (hw : ∀ j ∈ w.cache, j < w.next) (hk : k < w.next) :
    s.removeSenderMessageKey k.toUInt32 =
      if k ∈ w.cache then some (messageKeyAt seed k,
        { s with senderMessageKeys := (w.cache.erase k).map (cachedAt seed) })
      else none := by
  have hbound := h.bound
  -- on the cache, comparing iterations is comparing indices
  have hcmp : ∀ j ∈ w.cache, ((cachedAt seed j).iteration == k.toUInt32) = (j == k) := by
    intro j hj
    have hjlt := hw j hj
    rw [Bool.eq_iff_iff, beq_iff_eq, beq_iff_eq]
    exact toUInt32_inj (by omega) (by omega)
  rw [SenderKeyState.removeSenderMessageKey, h.keys, find?_indexed hcmp, eraseP_indexed hcmp]
  by_cases hmem : k ∈ w.cache
  · rw [if_pos hmem, if_pos hmem]
    rfl
  · rw [if_neg hmem, if_neg hmem]

lemma Tracks.past (h : Tracks seed w s) (hw : ∀ j ∈ w.cache, j < w.next) (hk : k < w.next) :
    senderKeyForIteration s k.toUInt32 =
      if k ∈ w.cache then .ok (messageKeyAt seed k,
        { s with senderMessageKeys := (w.cache.erase k).map (cachedAt seed) })
      else .error (.duplicateMessage k.toUInt32 w.next.toUInt32) := by
  have hbound := h.bound
  have hpast : (chainAt seed w.next).iteration > k.toUInt32 := (toUInt32_lt (by omega) hbound).mpr hk
  rw [senderKeyForIteration, h.chain]
  dsimp only
  rw [if_pos hpast, h.removeSenderMessageKey hw hk]
  by_cases hmem : k ∈ w.cache
  · rw [if_pos hmem, if_pos hmem, ← h.chain]
  · rw [if_neg hmem, if_neg hmem]
    rfl

lemma Tracks.ahead (h : Tracks seed w s) (hn : n ≤ 25000) (hbound : w.next + n + 1 < 2 ^ 32) :
    senderKeyForIteration s (w.next + n).toUInt32 = .ok (messageKeyAt seed (w.next + n),
      { s with senderChainKey := some (chainAt seed (w.next + n + 1)),
               senderMessageKeys := (w.skipMany maxMessageKeys n).cache.map (cachedAt seed) }) := by
  have hcur : (chainAt seed w.next).iteration = w.next.toUInt32 := rfl
  have hahead : ¬ w.next.toUInt32 > (w.next + n).toUInt32 := by
    rw [gt_iff_lt, toUInt32_lt (by omega) (by omega)]
    omega
  have hle : w.next.toUInt32 ≤ (w.next + n).toUInt32 := by
    rw [UInt32.le_iff_toNat_le, toNat_toUInt32 (by omega), toNat_toUInt32 (by omega)]
    exact Nat.le_add_right _ _
  have hdist : ((w.next + n).toUInt32 - w.next.toUInt32).toNat = n := by
    rw [UInt32.toNat_sub_of_le _ _ hle, toNat_toUInt32 (by omega), toNat_toUInt32 (by omega),
      Nat.add_sub_cancel_left]
  have hnear : ¬ (w.next + n).toUInt32 - w.next.toUInt32 > maxForwardJumps := by
    rw [gt_iff_lt, UInt32.lt_iff_toNat_lt, hdist]
    exact not_lt.mpr hn
  rw [senderKeyForIteration, h.chain]
  dsimp only
  rw [hcur, if_neg hahead, if_neg hnear, hdist, ratchetTo_skipMany seed h.keys (by omega), ok_bind]
  dsimp only
  rw [next_chainAt seed hbound, ok_bind, SenderKeyState.setSenderChainKey, messageKeyAt]
  rfl

lemma Tracks.tooFar (h : Tracks seed w s) (hk : w.next + 25000 < k) (hbound : k < 2 ^ 32) :
    senderKeyForIteration s k.toUInt32 = .error (.tooFar k.toUInt32 w.next.toUInt32) := by
  have hcur : (chainAt seed w.next).iteration = w.next.toUInt32 := rfl
  have hahead : ¬ w.next.toUInt32 > k.toUInt32 := by
    rw [gt_iff_lt, toUInt32_lt hbound (by omega)]
    omega
  have hle : w.next.toUInt32 ≤ k.toUInt32 := by
    rw [UInt32.le_iff_toNat_le, toNat_toUInt32 (by omega), toNat_toUInt32 hbound]
    omega
  have hfar : k.toUInt32 - w.next.toUInt32 > maxForwardJumps := by
    rw [gt_iff_lt, UInt32.lt_iff_toNat_lt, UInt32.toNat_sub_of_le _ _ hle, toNat_toUInt32 hbound,
      toNat_toUInt32 (by omega)]
    change 25000 < k - w.next
    omega
  rw [senderKeyForIteration, h.chain]
  dsimp only
  rw [hcur, if_neg hahead, if_pos hfar]

/-- What resolving the message key of an iteration does to a state that tracks a window. -/
inductive Resolves (seed : Bytes) (w : Window) (s : SenderKeyState) (k : Nat) : Prop
  | used (w' : Window) (s' : SenderKeyState) (huse : w.use maxMessageKeys k = some w')
      (hnear : k ≤ w.next + 25000) (hresolve : senderKeyForIteration s k.toUInt32 = .ok (messageKeyAt seed k, s'))
      (htracks : Tracks seed w' s') (hid : s'.chainID = s.chainID) (hversion : s'.version = s.version)
      (hsigning : s'.senderSigningKey = s.senderSigningKey)
  | duplicate (huse : w.use maxMessageKeys k = none)
      (hresolve : senderKeyForIteration s k.toUInt32 = .error (.duplicateMessage k.toUInt32 w.next.toUInt32))
  | tooFar (hfar : w.next + 25000 < k)
      (hresolve : senderKeyForIteration s k.toUInt32 = .error (.tooFar k.toUInt32 w.next.toUInt32))

lemma Tracks.resolves (h : Tracks seed w s) {i : Nat} (hw : w.Sound maxMessageKeys i) (hbound : k + 1 < 2 ^ 32) :
    Resolves seed w s k := by
  have hnextBound := h.bound
  by_cases hk : k < w.next
  · have hpast := h.past hw.cache_lt hk
    by_cases hmem : k ∈ w.cache
    · rw [if_pos hmem] at hpast
      refine .used (w.useCached k) _ (by rw [Window.use, if_pos hk, if_pos hmem]) (by omega) hpast ?_ rfl rfl rfl
      exact ⟨h.chain, rfl, h.bound⟩
    · rw [if_neg hmem] at hpast
      exact .duplicate (by rw [Window.use, if_pos hk, if_neg hmem]) hpast
  · by_cases hfar : w.next + 25000 < k
    · exact .tooFar hfar (h.tooFar hfar (by omega))
    · obtain ⟨n, rfl⟩ : ∃ n, k = w.next + n := ⟨k - w.next, by omega⟩
      refine .used (w.skipMany maxMessageKeys n).useNext _ ?_ (by omega)
        (h.ahead (by omega) hbound) ?_ rfl rfl rfl
      · rw [Window.use, if_neg hk, Nat.add_sub_cancel_left]
      · refine ⟨?_, rfl, ?_⟩
        · rw [Window.useNext, Window.skipMany_next]
        · rw [Window.useNext, Window.skipMany_next]
          exact hbound

end

end LibSignal.Groups
