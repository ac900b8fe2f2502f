import Mathlib.Logic.Relation
import LibSignal.Spqr.KeyStream
import LibSignal.Spqr.Loaded
import LibSignal.Spqr.UnaryCodec

/-!
# Downgrade resistance of one ratchet

A ratchet of version 1 with minimum version 1 is run against an arbitrary peer: `RatchetStep` is one
successful `send` or one successful `recv` of any byte string, and a failed call changes nothing.
-/

namespace LibSignal.Spqr
open Chunked Crypto Lib
open Relation (ReflTransGen)

/-! ## Key lengths of a chain -/

section
variable [Hash]

namespace Chain

/-- Every chain key has full length, except the cleared ones of past send directions. -/
def KeysSized (c : Chain) : Prop :=
  ∀ l ∈ c.links, (l.send.next = [] ∨ l.send.next.length = 32) ∧ l.recv.Sized

variable {c c' : Chain}

omit [Hash] in
lemma KeysSized.storable (h : c.KeysSized) : c.Storable :=
  fun l hl => ⟨(h l hl).1, .inr (h l hl).2.next⟩

lemma epochFor_sized (salt ikm info : Bytes) (dir : Direction) :
    ((epochFor (chainHKDF salt ikm info 96) dir).send.next = [] ∨
      (epochFor (chainHKDF salt ikm info 96) dir).send.next.length = 32) ∧
    (epochFor (chainHKDF salt ikm info 96) dir).recv.Sized := by
  have hlen := length_chainHKDF salt ikm info 96 (by decide)
  exact ⟨.inr (length_seedFor hlen dir),
    ChainEpochDirection.new_sized (length_seedFor hlen (switchDirection dir))⟩

lemma new_keysSized (key : Bytes) (dir : Direction) (params : ChainParams) :
    (Chain.new key dir params).KeysSized := by
  intro l hl
  rw [List.mem_singleton.mp hl]
  exact epochFor_sized _ _ _ _

lemma KeysSized.addEpoch (h : c.KeysSized) {es : EpochSecret} (hadd : c.addEpoch es = .ok c') :
    c'.KeysSized := by
  rw [Chain.addEpoch] at hadd
  split at hadd
  · cases hadd
  · cases hadd
    intro l hl
    rcases List.mem_append.mp hl with hl | hl
    · exact h l hl
    · rw [List.mem_singleton.mp hl]
      exact epochFor_sized _ _ _ _

lemma KeysSized.addSecret (h : c.KeysSized) {es : Option EpochSecret}
    (hadd : Spqr.addSecret c es = .ok c') : c'.KeysSized := by
  cases es with
  | none => cases hadd; exact h
  | some es => exact h.addEpoch hadd

omit [Hash] in
lemma popFront_subset (n : Nat) (links : List ChainEpoch) : (popFront n links).1 ⊆ links := by
  induction n generalizing links with
  | zero => exact List.Subset.refl _
  | succ n ih =>
    rw [popFront]
    split
    · exact List.Subset.trans (ih links.tail) (List.tail_subset links)
    · exact List.Subset.refl _

omit [Hash] in
lemma KeysSized.moveSendEpoch (h : c.KeysSized) (ep : UInt64) (i : Nat) :
    (c.moveSendEpoch ep i).1.KeysSized := by
  rw [Chain.moveSendEpoch]
  split
  · intro l hl
    have hmem : l ∈ clearBefore (popFront i c.links).2 (popFront i c.links).1 := hl
    rcases List.mem_append.mp hmem with hl | hl
    · obtain ⟨l0, hl0, rfl⟩ := List.mem_map.mp hl
      exact ⟨.inl rfl, (h l0 (popFront_subset _ _ (List.mem_of_mem_take hl0))).2⟩
    · exact h l (popFront_subset _ _ (List.mem_of_mem_drop hl))
  · exact h

omit [Hash] in
lemma KeysSized.set (h : c.KeysSized) (i : Nat) {l : ChainEpoch}
    (hl : (l.send.next = [] ∨ l.send.next.length = 32) ∧ l.recv.Sized) :
    KeysSized { c with links := c.links.set i l } := by
  intro l' hl'
  rcases List.mem_or_eq_of_mem_set hl' with hmem | rfl
  · exact h l' hmem
  · exact hl

lemma KeysSized.sendKey (h : c.KeysSized) {ep : UInt64} {ik : UInt32 × Bytes}
    (hkey : c.sendKey ep = .ok (ik, c')) : c'.KeysSized ∧ ik.2.length = 32 := by
  rw [Chain.sendKey] at hkey
  split at hkey
  · cases hkey
  · obtain ⟨i, _, hkey⟩ := bind_eq_ok hkey
    have hmove := h.moveSendEpoch ep i
    generalize c.moveSendEpoch ep i = m at hkey hmove
    obtain ⟨c1, j⟩ := m
    dsimp only at hkey hmove
    cases hl : c1.links[j]? with
    | none => rw [hl] at hkey; cases hkey
    | some l =>
      rw [hl] at hkey
      cases hkey
      have hsized := hmove l (List.mem_of_getElem? hl)
      exact ⟨hmove.set j ⟨.inr (ChainEpochDirection.length_derived_next _ _), hsized.2⟩,
        ChainEpochDirection.length_derived_key _ _⟩

lemma KeysSized.recvKey (h : c.KeysSized) {ep : UInt64} {idx : UInt32} {k : Bytes}
    (hkey : c.recvKey ep idx = .ok (k, c')) : c'.KeysSized ∧ k.length = if ep = 0 ∧ idx = 0 then 0 else 32 := by
  rw [Chain.recvKey] at hkey
  split at hkey
  · rename_i hzero
    cases hkey
    exact ⟨h, by rw [if_pos hzero]; rfl⟩
  · rename_i hzero
    obtain ⟨i, _, hkey⟩ := bind_eq_ok hkey
    cases hl : c.links[i]? with
    | none => rw [hl] at hkey; cases hkey
    | some l =>
      rw [hl] at hkey
      obtain ⟨⟨k', d⟩, hk, hr⟩ := bind_eq_ok hkey
      cases hr
      have hsized := h l (List.mem_of_getElem? hl)
      obtain ⟨hlen, hd, _⟩ :=
        ChainEpochDirection.key_keeps ChainEpochDirection.derives_sized hsized.2 hk
      exact ⟨h.set i ⟨hsized.1, hd⟩, by rw [if_neg hzero]; exact hlen⟩

end Chain

omit [Hash] in
lemma nonEmptyKey_eq_some {k : Bytes} (h : k.length = 32) : nonEmptyKey k = some k := by
  rw [nonEmptyKey, if_neg (by omega)]

omit [Hash] in
lemma pred_eq_zero_iff (e : UInt64) : e - 1 = 0 ↔ e = 1 := by
  rw [sub_eq_zero]

variable [IncrementalKem]

abbrev Guarded : VersionNegotiation → PqRatchetState → Prop := Loaded fun _ c => c.KeysSized

namespace Guarded
variable {vn : VersionNegotiation} {st st' : PqRatchetState} {pb : V1StatePB}
  {msg : SerializedMessage} {key : Option Bytes}

lemma send (h : Guarded vn st) (hmin : vn.minVersion = v1) {rng : Reader} (hpb : st.inner = some pb)
    (hsend : sendV1 st pb rng = .ok (st', msg, key)) :
    Guarded vn st' ∧ st'.versionNegotiation = st.versionNegotiation ∧ msg ≠ [] ∧
      ∃ k, key = some k ∧ k.length = 32 := by
  obtain ⟨s, s', p, es, c, c1, idx, mk, c2, _, hc, _, hwf', _, hadd, hkey, rfl, rfl, rfl⟩ :=
    Loaded.send h (by rw [hmin]; decide) hpb hsend
  obtain ⟨hc2, hmk⟩ := (hc.addSecret hadd).sendKey hkey
  refine ⟨Loaded.store hwf' (fun _ _ => hc2) hc2.storable h.negotiation, rfl, ?_, mk,
    nonEmptyKey_eq_some hmk, hmk⟩
  rw [serializeMessage_eq]
  simp [headBytes, appendVarint]

/-- The messages whose key is absent: the first of epoch 1, and index 0 of a higher version. -/
def Keyless (pre : MessagePreamble) : Prop :=
  (pre.version = 1 ∧ pre.epoch = 1 ∧ pre.index = 0) ∨ (1 < pre.version ∧ pre.index = 0)

lemma recv (h : Guarded vn st) (hmin : vn.minVersion = v1) {pre : MessagePreamble}
    {o : Option PqRatchetState} (hpre : deserializePreamble msg = some pre)
    (hrecv : recvPq st pre msg = .ok (o, key)) : ∃ st', o = some st' ∧ Guarded vn st' ∧ pre.version ≠ 0 ∧
      (st.versionNegotiation = none → pre.version = 1) ∧ (st'.versionNegotiation = none ∨
        pre.version ≠ 1 ∧ st'.versionNegotiation = st.versionNegotiation) ∧
      ((∃ k, key = some k ∧ k.length = 32) ↔ ¬ Keyless pre) := by
  obtain ⟨pb, hpb⟩ := Option.isSome_iff_exists.mp h.inner_isSome
  obtain ⟨hver, hopen, hneg⟩ := h.negotiated hmin hrecv
  rcases Loaded.recv h hpb hneg hver hrecv with hhigh | hone
  · obtain ⟨hne, s, c, mk, c2, hc, hwf, hs, hkey, rfl, rfl⟩ := hhigh
    obtain ⟨hc2, hlen⟩ := hc.recvKey hkey
    have hgt : 1 < pre.version := by
      rw [UInt8.lt_iff_toNat_lt]
      have h0 := mt UInt8.toNat_inj.mp hver
      have h1 := mt UInt8.toNat_inj.mp hne
      simp only [UInt8.toNat_zero, UInt8.toNat_one] at h0 h1 ⊢
      omega
    refine ⟨_, rfl, h.storeChain hpb hs hwf hc2 hc2.storable, hver, hopen, .inr ⟨hne, rfl⟩, ?_⟩
    by_cases hidx : pre.index = 0
    · simp [Keyless, hidx, hgt, hlen]
    · simp [Keyless, hidx, hlen]
  · obtain ⟨hv, s, s', m, idx, n, es, c, c1, mk, c2, _, hc, _, hwf', hmsg, _, hadd, hkey, rfl, rfl⟩ :=
      hone
    obtain ⟨hc2, hlen⟩ := (hc.addSecret hadd).recvKey hkey
    obtain ⟨pre', hpre', _, hepoch, hindex⟩ := deserializeMessage_preamble hmsg
    rw [hpre] at hpre'
    cases hpre'
    simp only [pred_eq_zero_iff, ← hepoch, ← hindex] at hlen
    refine ⟨_, rfl, Loaded.store hwf' (fun _ _ => hc2) hc2.storable (.inl rfl), hver, hopen, .inl rfl, ?_⟩
    by_cases hfirst : pre.epoch = 1 ∧ pre.index = 0
    · rw [if_pos hfirst] at hlen
      simp [Keyless, hv, hfirst, nonEmptyKey, hlen]
    · rw [if_neg hfirst] at hlen
      simp [Keyless, hv, hfirst, nonEmptyKey_eq_some hlen, hlen]

/-! ## Runs -/

variable [StateCodec] {b b' : SerializedState}

lemma sendStored (h : Guarded vn st) (hmin : vn.minVersion = v1) (hst : decodeState b = .ok st)
    {rng : Reader} {res : SendResult} (hsend : Spqr.send b rng = .ok res) :
    ∃ st', res.state = encodeState st' ∧ Guarded vn st' ∧
      st'.versionNegotiation = st.versionNegotiation ∧ res.msg ≠ [] ∧
      ∃ k, res.key = some k ∧ k.length = 32 := by
  obtain ⟨st0, hst0, hcase⟩ := send_inv hsend
  rw [hst] at hst0
  cases hst0
  rcases hcase with ⟨hnone, _⟩ | ⟨pb, st', msg, key, hpb, hstep, rfl⟩
  · have hsome := h.inner_isSome
    rw [hnone] at hsome
    cases hsome
  · exact ⟨st', rfl, h.send hmin hpb hstep⟩

lemma recvStored (h : Guarded vn st) (hmin : vn.minVersion = v1) (hst : decodeState b = .ok st)
    {res : RecvResult} (hrecv : Spqr.recv b msg = .ok res) :
    ∃ pre st', deserializePreamble msg = some pre ∧ msg.head? = some pre.version ∧
      res.state = encodeState st' ∧ Guarded vn st' ∧ (st.versionNegotiation = none → pre.version = 1) ∧
      (st'.versionNegotiation = none ∨ pre.version ≠ 1 ∧ st'.versionNegotiation = st.versionNegotiation) ∧
      ((∃ k, res.key = some k ∧ k.length = 32) ↔ ¬ Keyless pre) := by
  obtain ⟨pre, st0, o, key, hpre, hst0, hstep, rfl⟩ := recv_inv hrecv
  rw [hst] at hst0
  cases hst0
  obtain ⟨st', rfl, hst', hver, hrest⟩ := h.recv hmin hpre hstep
  refine ⟨pre, st', hpre, ?_, rfl, hst', hrest⟩
  cases msg with
  | nil => cases hpre; exact absurd rfl hver
  | cons v rest => rw [(deserializePreamble_cons hpre).1]; rfl

lemma step (h : Guarded vn st) (hmin : vn.minVersion = v1) (hst : decodeState b = .ok st)
    (hstep : RatchetStep b b') : ∃ st', decodeState b' = .ok st' ∧ Guarded vn st' ∧
      (st.versionNegotiation = none → st'.versionNegotiation = none) := by
  cases hstep with
  | send hsend =>
    obtain ⟨st', hres, hst', hneg, _⟩ := h.sendStored hmin hst hsend
    exact ⟨st', by rw [hres, decodeState_encodeState], hst', fun hnone => hneg.trans hnone⟩
  | recv hrecv =>
    obtain ⟨pre, st', _, _, hres, hst', _, hneg, _⟩ := h.recvStored hmin hst hrecv
    refine ⟨st', by rw [hres, decodeState_encodeState], hst', fun hnone => ?_⟩
    rcases hneg with hneg | ⟨_, hneg⟩
    · exact hneg
    · exact hneg.trans hnone

lemma run (h : Guarded vn st) (hmin : vn.minVersion = v1) (hst : decodeState b = .ok st)
    (hrun : ReflTransGen RatchetStep b b') : ∃ st', decodeState b' = .ok st' ∧ Guarded vn st' ∧
      (st.versionNegotiation = none → st'.versionNegotiation = none) := by
  induction hrun with
  | refl => exact ⟨st, hst, h, id⟩
  | tail _ hstep ih =>
    obtain ⟨st1, hst1, h₁, hneg1⟩ := ih
    obtain ⟨st2, hst2, h2, hneg2⟩ := h₁.step hmin hst1 hstep
    exact ⟨st2, hst2, h2, fun hnone => hneg2 (hneg1 hnone)⟩

lemma recv_below (h : Guarded vn st) (hmin : vn.minVersion = v1) (hst : decodeState b = .ok st)
    (hver : msg.headD 0 = 0) :
    Spqr.recv b msg =
      .error (if (deserializePreamble msg).isSome then .minimumVersion else .msgDecode) := by
  cases hpre : deserializePreamble msg with
  | none =>
    rw [Spqr.recv, hpre]
    rfl
  | some pre =>
    have hzero : pre.version = 0 := by
      cases msg with
      | nil => cases hpre; rfl
      | cons v rest => exact (deserializePreamble_cons hpre).1.trans hver
    have hneg := negotiateRecv_min_one h.inner_isSome
      (fun n hn => by rw [h.minVersion hn, hmin]; rfl) pre.version
    rw [if_pos hzero] at hneg
    rw [Spqr.recv, hpre]
    simp only [decoded, ok_bind, hst, recvPq, hneg, error_bind]
    rfl

omit [IncrementalKem] in
lemma initial {p : Params} (hv : p.version = v1) :
    decodeState (initialState p) = .ok (initialPq p) ∧ Guarded p.negotiation (initialPq p) := by
  refine ⟨?_, Loaded.initial hv fun _ _ _ _ => Chain.new_keysSized _ _ _⟩
  rw [initialState, hv, if_neg (by decide), decodeState_encodeState]

omit [IncrementalKem] [StateCodec] in
lemma version (h : Guarded vn st) : stateVersion st = v1 := by
  obtain ⟨pb, hpb⟩ := Option.isSome_iff_exists.mp h.inner_isSome
  rw [stateVersion, hpb]

end Guarded

/-- Downgrade resistance: along any run of a ratchet of version 1 and minimum version 1 against an
arbitrary peer the state never falls back to version 0, every send is protected, nothing below version 1
is accepted, every receive but the keyless ones yields a full key, and after the first message of
version 1 negotiation is closed for good. -/
theorem downgrade_resistance [StateCodec] {p : Params} (hv : p.version = v1)
    (hmin : p.minVersion = v1) {b : SerializedState}
    (hrun : ReflTransGen RatchetStep (initialState p) b) :
    (b ≠ emptyState ∧ ∃ st, decodeState b = .ok st ∧ stateVersion st = v1) ∧
    (∀ rng res, send b rng = .ok res → res.msg ≠ [] ∧ ∃ k, res.key = some k ∧ k.length = 32) ∧
    (∀ msg : SerializedMessage, msg.headD 0 < 1 →
      recv b msg =
        .error (if (deserializePreamble msg).isSome then .minimumVersion else .msgDecode)) ∧
    (∀ msg pre res, deserializePreamble msg = some pre → recv b msg = .ok res →
      ((∃ k, res.key = some k ∧ k.length = 32) ↔
        ¬ ((pre.version = 1 ∧ pre.epoch = 1 ∧ pre.index = 0) ∨
          (1 < pre.version ∧ pre.index = 0)))) ∧
    (∀ msg res, recv b msg = .ok res → msg.head? = some 1 →
      ∀ b', ReflTransGen RatchetStep res.state b' →
        (∃ st, decodeState b' = .ok st ∧ st.versionNegotiation = none) ∧
        ∀ msg' res', recv b' msg' = .ok res' → msg'.head? = some 1) := by
  obtain ⟨hst0, hg0⟩ := Guarded.initial hv
  obtain ⟨st, hst, hg, _⟩ := hg0.run hmin hst0 hrun
  refine ⟨⟨?_, st, hst, hg.version⟩, ?_, ?_, ?_, ?_⟩
  · -- the empty bytes would decode to the zero state, which has no machine
    rintro rfl
    rw [decodeState, emptyState, StateCodec.unmarshal_nil] at hst
    cases hst
    cases hg.version
  · intro rng res hsend
    obtain ⟨_, _, _, _, hout⟩ := hg.sendStored hmin hst hsend
    exact hout
  · intro msg hlt
    exact hg.recv_below hmin hst (UInt8.toNat_inj.mp (Nat.lt_one_iff.mp (UInt8.lt_iff_toNat_lt.mp hlt)))
  · intro msg pre res hpre hrecv
    obtain ⟨pre', _, hpre', _, _, _, _, _, hkey⟩ := hg.recvStored hmin hst hrecv
    rw [hpre] at hpre'
    cases hpre'
    exact hkey
  · intro msg res hrecv hmsg b' hrun'
    obtain ⟨pre, st1, _, hhead, hres, hg1, _, hneg, _⟩ := hg.recvStored hmin hst hrecv
    have hclosed : st1.versionNegotiation = none := by
      rcases hneg with hneg | ⟨hne, _⟩
      · exact hneg
      · rw [hmsg] at hhead
        exact absurd (Option.some.inj hhead).symm hne
    obtain ⟨st', hst', hg', hneg'⟩ := hg1.run hmin (by rw [hres, decodeState_encodeState]) hrun'
    refine ⟨⟨st', hst', hneg' hclosed⟩, ?_⟩
    intro msg' res' hrecv'
    obtain ⟨pre', _, _, hhead', _, _, hopen, _⟩ := hg'.recvStored hmin hst' hrecv'
    rw [hhead', hopen (hneg' hclosed)]

end

/-- A fresh ratchet of version 1 and minimum version 1 rejects the empty message. -/
theorem downgrade_resistance_fresh :
    let p : Params := ⟨.a2b, v1, v1, zeros 32, some ⟨0, 0⟩⟩
    @initialState zeroHash unaryCodec p ≠ emptyState ∧
      @recv zeroHash zeroKem unaryCodec (@initialState zeroHash unaryCodec p) []
        = .error .minimumVersion := by
  intro p
  have h := @downgrade_resistance zeroHash zeroKem unaryCodec p rfl rfl _ .refl
  exact ⟨h.1.1, h.2.2.1 [] (by decide)⟩

end LibSignal.Spqr
