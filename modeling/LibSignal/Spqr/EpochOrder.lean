import LibSignal.Spqr.Coupling
import LibSignal.Spqr.UnaryCodec

/-!
# The order of epochs in a run of one ratchet

A ratchet of version 1 and minimum version 1 is run against an arbitrary peer. `FoldRun` records the secrets
it folds into its chain.
-/

namespace LibSignal.Spqr
open Chunked Crypto Lib

section
variable [Hash]

namespace ChainEpochDirection

def advance (p : UInt32 × Bytes) : UInt32 × Bytes :=
  (p.1 + 1, slice (derive p.2 (p.1 + 1)) 0 32)

/-- A counter and a chain key reached from the seed. -/
def Grown (seed : Bytes) (ctr : UInt32) (next : Bytes) : Prop :=
  (∃ k, (ctr, next) = advance^[k] (0, seed)) ∧ next.length = 32

variable {seed : Bytes}

lemma Grown.advance {next : Bytes} {ctr : UInt32} (h : Grown seed ctr next) :
    Grown seed (ctr + 1) (slice (derive next (ctr + 1)) 0 32) := by
  obtain ⟨⟨k, hk⟩, _⟩ := h
  refine ⟨⟨k + 1, ?_⟩, length_derived_next _ _⟩
  rw [Function.iterate_succ_apply', ← hk]
  rfl

def GrownSend (seed : Bytes) (d : ChainEpochDirection) : Prop := Grown seed d.ctr d.next

/-- The receive direction grew from the seed, and its stored keys have full length. -/
def GrownRecv (seed : Bytes) : ChainEpochDirection → Prop :=
  Keeps (Grown seed) (fun _ k => k.length = 32)

lemma derives_grown (seed : Bytes) : Derives (Grown seed) (fun _ k => k.length = 32) :=
  fun _ _ _ h => ⟨h.advance, length_derived_key _ _⟩

lemma new_grown (h : seed.length = 32) : GrownSend seed (new seed) := ⟨⟨0, rfl⟩, h⟩

lemma new_grownRecv (h : seed.length = 32) : GrownRecv seed (new seed) :=
  ⟨new_grown h, [], ⟨rfl, by simp⟩, by simp⟩

end ChainEpochDirection

open ChainEpochDirection (GrownSend GrownRecv new_grown new_grownRecv)

/-- The machine and the chain after the secrets `fs`, with every direction grown from its seed. -/
abbrev Grows (p : Params) (fs : List EpochSecret) : V1State → Chain → Prop :=
  Coupled (fun _ => GrownSend) (fun _ => GrownRecv) p.authKey p.direction fs

namespace Grows
variable {p : Params} {fs : List EpochSecret} {s s' : V1State} {c c' : Chain}

lemma storable (h : Grows p fs s c) : c.Storable := by
  intro l hl
  obtain ⟨i, hi⟩ := List.mem_iff_getElem?.mp hl
  have hok := h.chain.window.link i l hi
  refine ⟨?_, .inr hok.recv.next.2⟩
  by_cases hlt : c.lo + i < c.sendEpoch.toNat
  · exact .inl (hok.cleared hlt)
  · exact .inr (hok.send (by omega)).2

lemma send (h : Grows p fs s c) {es : Option EpochSecret} (hepoch : s'.epoch = s.epoch)
    (hmove : V1State.SendMove s s' es) :
    ∃ c1 ik c2, addSecret c es = .ok c1 ∧ c1.sendKey (s.epoch - 1) = .ok (ik, c2) ∧
      Grows p (fs ++ es.toList) s' c2 := by
  obtain ⟨c1, d, c2, hadd, hkey, hd, hnext, _⟩ := Coupled.send h hepoch hmove
    (fun _ _ => new_grown) (fun _ _ => new_grownRecv)
  exact ⟨c1, _, c2, hadd, hkey, hnext _ (fun _ _ _ _ h => h) hd.advance⟩

lemma recv (h : Grows p fs s c) (hsmall : s.epoch.toNat < 2 ^ 63) {e : UInt64}
    {es : Option EpochSecret} (hmove : V1State.RecvMove s s' e es) :
    ∃ c1, addSecret c es = .ok c1 ∧ Grows p (fs ++ es.toList) s' c1 := by
  obtain ⟨c1, hadd, hc1, _⟩ := Coupled.recv h (by omega) hmove (fun _ _ => new_grown)
    (fun _ _ => new_grownRecv)
  exact ⟨c1, hadd, hc1⟩

lemma recvKey (h : Grows p fs s c) {ep : UInt64} {idx : UInt32} {k : Bytes}
    (hkey : c.recvKey ep idx = .ok (k, c')) : Grows p fs s c' := by
  by_cases hzero : ep = 0 ∧ idx = 0
  · rw [Chain.recvKey, if_pos hzero] at hkey
    cases hkey
    exact h
  · obtain ⟨d, d', hd, hk, hnext, _⟩ := Coupled.recvKey h hzero hkey
    obtain ⟨_, hd', _⟩ := ChainEpochDirection.key_keeps (ChainEpochDirection.derives_grown _) hd hk
    exact hnext _ (fun _ _ _ _ h => h) hd'

end Grows

/-! ## Runs -/

variable [IncrementalKem] [StateCodec]

def sendSecret (b : SerializedState) (rng : Reader) : Option EpochSecret :=
  match machineOf b with
  | .error _ => none
  | .ok s =>
    match s.send rng with
    | .error _ => none
    | .ok (_, _, es) => es

def recvSecret (b : SerializedState) (msg : SerializedMessage) : Option EpochSecret :=
  match machineOf b, deserializeMessage msg with
  | .ok s, some (m, _, _) =>
    match s.recv m with
    | .error _ => none
    | .ok (_, es) => es
  | _, _ => none

/-- The machine's epoch is below `2^63`. -/
def EpochBelow (b : SerializedState) : Prop :=
  ∀ s, machineOf b = .ok s → s.epoch.toNat < 2 ^ 63

/-- A run of one ratchet against any peer, with the secrets it folded in, oldest first. The epochs stay
below `2^63`, and a failed call leaves the state as it was. -/
inductive FoldRun (b0 : SerializedState) : List EpochSecret → SerializedState → Prop
  | start : FoldRun b0 [] b0
  | send {fs : List EpochSecret} {b : SerializedState} {rng : Reader} {res : SendResult}
      (hrun : FoldRun b0 fs b) (h : send b rng = .ok res) (hsmall : EpochBelow res.state) :
      FoldRun b0 (fs ++ (sendSecret b rng).toList) res.state
  | recv {fs : List EpochSecret} {b : SerializedState} {msg : SerializedMessage} {res : RecvResult}
      (hrun : FoldRun b0 fs b) (h : recv b msg = .ok res) (hsmall : EpochBelow res.state) :
      FoldRun b0 (fs ++ (recvSecret b msg).toList) res.state

section Run
variable {p : Params} {fs : List EpochSecret} {b : SerializedState} {st : PqRatchetState}

structure Running (p : Params) (fs : List EpochSecret) (st : PqRatchetState) : Prop where
  loaded : Loaded (Grows p fs) p.negotiation st
  chain : ∃ c, chainFrom st.chain st.versionNegotiation = .ok c

namespace Running

omit [IncrementalKem] [StateCodec] in
lemma store {s : V1State} {c : Chain} {neg : Option VersionNegotiation} (hwf : s.Wf)
    (hc : Grows p fs s c) (hneg : neg = none ∨ neg = some p.negotiation) :
    Running p fs ⟨neg, some c.toProto, some (v1StateToProto s)⟩ :=
  ⟨Loaded.store hwf (fun _ hl => hc.of_like hl) hc.storable hneg, c, chainFromProto_toProto hc.storable⟩

omit [IncrementalKem] in
lemma parts (h : Running p fs st) (hst : decodeState b = .ok st) :
    ∃ s c, machineOf b = .ok s ∧ chainOf b = .ok c ∧ s.Wf ∧ Grows p fs s c := by
  obtain ⟨pb, s, hpb, hs, hwf, hP⟩ := h.loaded.machine
  obtain ⟨c, hc⟩ := h.chain
  refine ⟨s, c, ?_, ?_, hwf, hP c hc⟩
  · rw [machineOf, hst, ok_bind, hpb]
    exact hs
  · rw [chainOf, hst, ok_bind]
    exact hc

lemma send (h : Running p fs st) (hmin : p.minVersion = v1) (hst : decodeState b = .ok st)
    {rng : Reader} {res : SendResult} (hsend : Spqr.send b rng = .ok res) :
    ∃ st', decodeState res.state = .ok st' ∧ Running p (fs ++ (sendSecret b rng).toList) st' := by
  obtain ⟨st0, hst0, hcase⟩ := send_inv hsend
  rw [hst] at hst0
  cases hst0
  rcases hcase with ⟨hnone, _⟩ | ⟨pb, st', msg, key, hpb, hstep, rfl⟩
  · have hsome := h.loaded.inner_isSome
    rw [hnone] at hsome
    cases hsome
  · obtain ⟨s, s', pl, es, c, c1, idx, mk, c2, hs, hc, _, hwf', hstep', hadd, hkey, _, _, rfl⟩ :=
      h.loaded.send (by change p.minVersion > v0; rw [hmin]; decide) hpb hstep
    obtain ⟨hepoch, hmove⟩ := V1State.sendStep_move hstep'
    obtain ⟨c1', ik, c2', hadd', hkey', hc'⟩ := hc.send hepoch hmove
    rw [hadd] at hadd'
    cases hadd'
    rw [hkey] at hkey'
    cases hkey'
    have hsec : sendSecret b rng = es := by
      rw [sendSecret, machineOf, hst, ok_bind, hpb]
      simp only [hs, V1State.send, hstep', ok_bind]
      rfl
    rw [hsec]
    exact ⟨_, decodeState_encodeState _, store hwf' hc' h.loaded.negotiation⟩

lemma recv (h : Running p fs st) (hmin : p.minVersion = v1) (hst : decodeState b = .ok st)
    (hsmall : EpochBelow b) {msg : SerializedMessage} {res : RecvResult} (hrecv : Spqr.recv b msg = .ok res) :
    ∃ st', decodeState res.state = .ok st' ∧ Running p (fs ++ (recvSecret b msg).toList) st' := by
  obtain ⟨pre, st0, o, key, hpre, hst0, hstep, rfl⟩ := recv_inv hrecv
  rw [hst] at hst0
  cases hst0
  obtain ⟨pb, hpb⟩ := Option.isSome_iff_exists.mp h.loaded.inner_isSome
  obtain ⟨hver, _, hneg⟩ := h.loaded.negotiated hmin hstep
  rcases h.loaded.recv hpb hneg hver hstep with hhigh | hone
  · obtain ⟨hne, s, c, mk, c2, hc, hwf, hs, hkey, rfl, rfl⟩ := hhigh
    have hc2 := hc.recvKey hkey
    have hsec : recvSecret b msg = none := by
      have hnot : deserializeMessage msg = none := by
        cases hmsg : deserializeMessage msg with
        | none => rfl
        | some r =>
          obtain ⟨m, idx, n⟩ := r
          obtain ⟨pre', hpre', hv, _⟩ := deserializeMessage_preamble hmsg
          rw [hpre] at hpre'
          cases hpre'
          exact absurd hv hne
      rw [recvSecret, hnot]
      split
      · rename_i heq
        cases heq
      · rfl
    rw [hsec, Option.toList_none, List.append_nil]
    have hsto := hc2.storable
    exact ⟨_, decodeState_encodeState _, h.loaded.storeChain hpb hs hwf hc2 hsto, c2,
      chainFromProto_toProto hsto⟩
  · obtain ⟨hv, s, s', m, idx, n, es, c, c1, mk, c2, hs, hc, _, hwf', hmsg, hstep', hadd, hkey, rfl, rfl⟩ :=
      hone
    have hmach : machineOf b = .ok s := by
      rw [machineOf, hst, ok_bind, hpb]
      exact hs
    obtain ⟨c1', hadd', hc1⟩ := hc.recv (hsmall s hmach) (V1State.recv_move hstep')
    rw [hadd] at hadd'
    cases hadd'
    have hsec : recvSecret b msg = es := by
      rw [recvSecret, hmach, hmsg]
      simp only [hstep']
    rw [hsec]
    exact ⟨_, decodeState_encodeState _, store hwf' (hc1.recvKey hkey) (.inl rfl)⟩

lemma send_ok (h : Running p fs st) (hmin : p.minVersion = v1) (hst : decodeState b = .ok st)
    {rng : Reader} (hrng : ∀ n, (rng.read n).isSome) : ∃ res, Spqr.send b rng = .ok res := by
  obtain ⟨pb, s, hpb, hs, hwf, hP⟩ := h.loaded.machine
  obtain ⟨c, hc⟩ := h.chain
  obtain ⟨⟨s', pl, es⟩, hstep⟩ := V1State.sendStep_ok hwf hrng
  obtain ⟨hepoch, hmove⟩ := V1State.sendStep_move hstep
  obtain ⟨c1, ⟨idx, mk⟩, c2, hadd, hkey, _⟩ := (hP c hc).send hepoch hmove
  have hch := h.loaded.resolveSendChain_ok (by change p.minVersion > v0; rw [hmin]; decide) hc
  rw [Spqr.send, hst, ok_bind, hpb]
  simp only [sendV1, hs, V1State.send, hstep, ok_bind, hch, sendChainStep, hadd, pure_eq_ok]
  rw [hkey]
  exact ⟨_, rfl⟩

omit [IncrementalKem] in
lemma initial (hv : p.version = v1) {params : ChainParams} (hpar : p.chainParams = some params) :
    decodeState (initialState p) = .ok (initialPq p) ∧ Running p [] (initialPq p) := by
  refine ⟨?_, Loaded.initial hv ?_, ?_⟩
  · rw [initialState, hv, if_neg (by decide), decodeState_encodeState]
  · intro s params' hl _
    exact Coupled.of_like (Coupled.initial p params' (fun _ => new_grown) (fun _ => new_grownRecv)) hl
  · refine ⟨.new p.authKey p.direction params, ?_⟩
    change chainFromVersionNegotiation p.negotiation = _
    rw [chainFromVersionNegotiation, Params.negotiation, hpar]

end Running

lemma FoldRun.running (hv : p.version = v1) (hmin : p.minVersion = v1) {params : ChainParams}
    (hpar : p.chainParams = some params) (hrun : FoldRun (initialState p) fs b) :
    EpochBelow b ∧ ∃ st, decodeState b = .ok st ∧ Running p fs st := by
  induction hrun with
  | start =>
    obtain ⟨hst, hrun⟩ := Running.initial hv hpar
    refine ⟨fun s hs => ?_, _, hst, hrun⟩
    obtain ⟨s', c, hs', _, _, hc⟩ := hrun.parts hst
    rw [hs] at hs'
    cases hs'
    have hcur := hc.current
    have hlen := hc.chain.length_eq
    rw [← hlen] at hcur
    simp only [List.length_nil] at hcur
    split at hcur <;> omega
  | send _ hsend hsmall ih =>
    obtain ⟨_, st, hst, hrun⟩ := ih
    exact ⟨hsmall, hrun.send hmin hst hsend⟩
  | recv _ hrecv hsmall ih =>
    obtain ⟨hb, st, hst, hrun⟩ := ih
    exact ⟨hsmall, hrun.recv hmin hst hb hrecv⟩

end Run

/-- Epoch coupling: in every state of a run against any peer the chain's epochs stand in a fixed relation
to the machine's, the links are a window of at most three epochs that contains the send epoch, the secrets
were folded once each in the order 1, 2, 3, …, no fold and no draw of a send key can fail, and a send
succeeds when the random source does. -/
theorem epoch_coupling {p : Params} (hv : p.version = v1) (hmin : p.minVersion = v1)
    {params : ChainParams} (hpar : p.chainParams = some params) {fs : List EpochSecret}
    {b : SerializedState} (hrun : FoldRun (initialState p) fs b) :
    ∃ s c, machineOf b = .ok s ∧ chainOf b = .ok c ∧ 1 ≤ s.epoch.toNat ∧
      c.currentEpoch.toNat = (if s.tag.ahead then s.epoch.toNat else s.epoch.toNat - 1) ∧
      c.sendEpoch.toNat ≤ s.epoch.toNat - 1 ∧ c.currentEpoch.toNat - 1 ≤ c.sendEpoch.toNat ∧
      (c.lo + c.links.length = c.currentEpoch.toNat + 1 ∧ c.lo ≤ c.sendEpoch.toNat ∧
        c.sendEpoch.toNat ≤ c.currentEpoch.toNat ∧ c.links.length ≤ 3 ∧ ∀ i l, c.links[i]? = some l →
          Chain.LinkOk (fun n => GrownSend (Chain.seedAt p.authKey fs n p.direction))
            (fun n => GrownRecv (Chain.seedAt p.authKey fs n (switchDirection p.direction)))
            c.sendEpoch.toNat (c.lo + i) l) ∧
      fs.map (fun es => es.epoch.toNat) = List.range' 1 c.currentEpoch.toNat ∧
      (∀ rng s' m es, s.send rng = .ok (s', m, es) →
        ∃ c1, addSecret c es = .ok c1 ∧ ∃ r, c1.sendKey (m.epoch - 1) = .ok r) ∧
      (∀ m s' es, s.recv m = .ok (s', es) → ∃ c1, addSecret c es = .ok c1) ∧
      ∀ rng : Reader, (∀ n, (rng.read n).isSome) → ∃ res, send b rng = .ok res := by
  obtain ⟨hsmall, st, hst, hrun⟩ := hrun.running hv hmin hpar
  obtain ⟨s, c, hs, hc, hwf, hco⟩ := hrun.parts hst
  have hcur := hco.current
  have hlt := hco.send_lt
  have hle := hco.current_le
  have hlen := hco.chain.window.length_le
  refine ⟨s, c, hs, hc, by omega, ?_, by omega, by omega,
    ⟨?_, hco.chain.window.lo_le_send, hco.chain.window.send_le, hco.length_le, hco.chain.window.link⟩,
    hco.chain.order, ?_, ?_, fun rng hrng => hrun.send_ok hmin hst hrng⟩
  · split at hcur <;> simp_all
    omega
  · rw [Chain.lo]
    omega
  · intro rng s' m es hsend
    obtain ⟨hstep, hm⟩ := V1State.send_inv hsend
    obtain ⟨hepoch, hmove⟩ := V1State.sendStep_move hstep
    obtain ⟨c1, ik, c2, hadd, hkey, _⟩ := hco.send hepoch hmove
    exact ⟨c1, hadd, _, by rw [hm]; exact hkey⟩
  · intro m s' es hrecv
    obtain ⟨c1, hadd, _⟩ := hco.recv (hsmall s hs) (V1State.recv_move hrecv)
    exact ⟨c1, hadd⟩

end

/-- A send of a fresh ratchet with chain parameters. -/
theorem epoch_coupling_fresh :
    let p : Params := ⟨.b2a, v1, v1, zeros 32, some ⟨0, 0⟩⟩
    ∃ res, @send zeroHash zeroKem unaryCodec (@initialState zeroHash unaryCodec p) zeroReader
      = .ok res := by
  intro p
  obtain ⟨_, _, _, _, _, _, _, _, _, _, _, _, hsend⟩ :=
    @epoch_coupling zeroHash zeroKem unaryCodec p rfl rfl ⟨0, 0⟩ rfl [] _
      (@FoldRun.start zeroHash zeroKem unaryCodec _)
  exact hsend zeroReader fun _ => rfl

/-- Without chain parameters the first send fails, though the random source never does. -/
theorem send_without_chain_params :
    let p : Params := ⟨.a2b, v1, v1, zeros 32, none⟩
    (∀ n, (zeroReader.read n).isSome) ∧
      @send zeroHash zeroKem unaryCodec (@initialState zeroHash unaryCodec p) zeroReader
        = .error .chainNotAvailable := by
  let _ := zeroHash
  let _ := zeroKem
  let _ := unaryCodec
  intro p
  refine ⟨fun _ => rfl, ?_⟩
  have hst : decodeState (initialState p) = .ok (initialPq p) := by
    rw [initialState, if_neg (by decide), decodeState_encodeState]
  obtain ⟨⟨s', pl, es⟩, hstep⟩ :=
    @V1State.sendStep_ok _ _ (newSendEkState p.authKey) zeroReader trivial fun _ => rfl
  have hs : v1StateFromProto (v1StateToProto (newSendEkState p.authKey))
      = .ok (newSendEkState p.authKey) := rfl
  have hch : resolveSendChain (initialPq p) = .error .chainNotAvailable := rfl
  have hin : (initialPq p).inner = some (v1StateToProto (newSendEkState p.authKey)) := rfl
  rw [send, hst, ok_bind, hin]
  simp only [sendV1, hs, V1State.send, hstep, ok_bind, pure_eq_ok, hch, error_bind]

end LibSignal.Spqr
