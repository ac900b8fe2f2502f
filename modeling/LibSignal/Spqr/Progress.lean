import LibSignal.Spqr.Agreement
import LibSignal.Spqr.Flow
import LibSignal.Spqr.UnaryCodec

/-!
# Progress

From any point of a run the two parties may start to alternate: each sends, and the message is delivered at
once.
-/

namespace LibSignal.Spqr
open Chunked Crypto Lib

section
variable [Hash] [StateCodec] [IncrementalKem]

namespace Net

def lost (net : Net) (d : Direction) : Nat := (net.sent d).length - net.heard d

def turn (net : Net) (d : Direction) (rng : Reader) : Except Err Net := do
  let res ← send (net.state d) rng
  let out ← recv (net.state (switchDirection d)) res.msg
  return (net.afterSend d res).afterRecv (switchDirection d) (net.sent d).length out

def round (net : Net) (d : Direction) (rngs : Reader × Reader) : Except Err Net := do
  let net' ← net.turn d rngs.1
  net'.turn (switchDirection d) rngs.2

def rounds (net : Net) (d : Direction) (rngs : Nat → Reader × Reader) : Nat → Except Err Net
  | 0 => .ok net
  | n + 1 => do
    let net' ← net.rounds d rngs n
    net'.round d (rngs n)

end Net

namespace Joint
variable {u : Setup} {net : Net} {t : Transcript} {v : Direction → View}

lemma recv_latest (h : Joint u net t v) (hK : IncrementalKem.Correct) {d : Direction}
    (hmin : u.minVersion d = v0 ∨ u.minVersion d = v1) (hsmall : (v d).s.epoch.toNat + 1 < 2 ^ 64)
    {k : Nat} {x : Sent} (hx : (net.sent (switchDirection d))[k]? = some x)
    (hepoch : x.epoch = (v (switchDirection d)).s.epoch) (hnew : net.heard (switchDirection d) ≤ k)
    (hlost : k < net.heard (switchDirection d) + (resolveMaxJump (some u.params)).toNat) :
    ∃ res, Spqr.recv (net.state d) x.msg = .ok res := by
  have hw := h.side_switch d
  obtain ⟨p, idx, hl⟩ := hw.log k x hx
  obtain ⟨s', es, c1, hstep, _, _, hco, hpar, _, heq⟩ :=
    (h.side d).recv_eq hK hmin hw (h.aligned d) hsmall hl
  have hal := (h.aligned d).recv hsmall hl.past hstep
  rw [heq]
  suffices hdraw : ∃ mk c', c1.recvKey (x.epoch - 1) idx = .ok (mk, c') by
    obtain ⟨mk, c', hdraw⟩ := hdraw
    rw [hdraw]
    exact ⟨_, rfl⟩
  rcases hl.key with ⟨_, rfl, hone, _⟩ | ⟨hne, hsome⟩
  · rw [hone, Chain.recvKey, if_pos ⟨rfl, rfl⟩]
    exact ⟨_, _, rfl⟩
  have hpred : (x.epoch - 1).toNat = x.epoch.toNat - 1 :=
    UInt64.toNat_sub_of_le _ _ (UInt64.le_iff_toNat_le.mpr hl.epoch_pos)
  have hpos := hl.epoch_pos
  -- the window of the receiver reaches from two epochs back to the sender's epoch
  have hlo : c1.lo ≤ (x.epoch - 1).toNat := by
    have hlt := hco.send_lt
    rw [hco.chain.window.lo_eq, hpred, hepoch]
    rcases hal.near with hle | ⟨heq, _⟩ <;> omega
  have hhi : (x.epoch - 1).toNat ≤ c1.currentEpoch.toNat := by
    have hcur := hco.current
    rw [hpred, hepoch]
    rcases hal.nearPeer with hle | ⟨heq, htag⟩
    · omega
    · rw [htag] at hcur
      simp only [Tag.ahead, if_true] at hcur
      omega
  obtain ⟨dd, hdd, hkey⟩ := hco.chain.window.recvKey_ok (fun h => hne h.2) hlo hhi
    (by have := hco.length_le; omega)
  rw [hpred] at hdd
  obtain ⟨hlt, hjump⟩ := hdd.behind
    (fun y hy => (hw.own_le y hy).trans (by rw [← hepoch]; omega)) hx hnew (by omega)
    (by rw [hsome]; rfl)
  rw [← hl.index] at hlt hjump
  rw [hpar] at hkey
  obtain ⟨mk, dd', hk, _⟩ := ChainEpochDirection.key_ahead (ChainEpochDirection.derives_tracks _)
    hdd.tracks hlt (hjump.trans (show _ ≤ (resolveMaxJump (some u.params)).toNat by omega))
  obtain ⟨c', hc'⟩ := hkey mk dd' hk
  exact ⟨mk, c', hc'⟩

lemma turn (h : Joint u net t v) (hK : IncrementalKem.Correct) (hmin : ∀ d, u.minVersion d = v1)
    {d : Direction} {rng : Reader} (hrng : ∀ n, (rng.read n).isSome)
    (hcount : sendsIn (v d).s.epoch.toNat (net.sent d) + 1 < 2 ^ 32)
    (hsmall : (v (switchDirection d)).s.epoch.toNat + 1 < 2 ^ 64)
    (hlost : net.lost d < (resolveMaxJump (some u.params)).toNat) :
    ∃ net' t' v' x, net.turn d rng = .ok net' ∧ Joint u net' t' v' ∧
      net'.sent d = net.sent d ++ [x] ∧ x.epoch = (v d).s.epoch ∧
      net'.sent (switchDirection d) = net.sent (switchDirection d) ∧
      net'.lost d = 0 ∧ net'.lost (switchDirection d) = net.lost (switchDirection d) ∧
      ∃ s' p es q' es', (v d).s.sendStep rng = .ok (s', p, es) ∧ V1State.Like s' (v' d).s ∧
        (v (switchDirection d)).s.recv ⟨(v d).s.epoch, p⟩ = .ok (q', es') ∧
        V1State.Like q' (v' (switchDirection d)).s := by
  have hne := switchDirection_ne d
  obtain ⟨res, hsend⟩ := h.send_ok (hmin d) hrng
  obtain ⟨t', w, s', es, p, idx, hj, hlog, hstep, hlike⟩ := h.send hcount hsend
  have hle := h.heard_le d
  -- the network between the send and the delivery
  let net1 := net.afterSend d res
  let x : Sent := ⟨(v d).s.epoch, res.msg, res.key⟩
  have hsent : net1.sent d = net.sent d ++ [x] := by
    change Function.update _ _ _ _ = _
    rw [Function.update_self, h.epochOf_eq]
  have hx : (net1.sent (switchDirection (switchDirection d)))[(net.sent d).length]? = some x := by
    rw [switchDirection_switchDirection, hsent, List.getElem?_concat_length]
  have hw : w.s.epoch = (v d).s.epoch := hlike.epoch.trans (V1State.sendStep_move hstep).1
  have hheard : net1.heard (switchDirection (switchDirection d)) = net.heard d := by
    rw [switchDirection_switchDirection]
    rfl
  have hpeer : Function.update v d w (switchDirection d) = v (switchDirection d) :=
    Function.update_of_ne hne _ _
  have hstate : net1.state (switchDirection d) = net.state (switchDirection d) :=
    Function.update_of_ne hne _ _
  obtain ⟨out, hout⟩ := hj.recv_latest hK (.inr (hmin _)) (by rw [hpeer]; exact hsmall) hx
    (by rw [switchDirection_switchDirection, Function.update_self, hw])
    (by rw [hheard]; exact hle)
    (by rw [hheard]; rw [Net.lost] at hlost; omega)
  obtain ⟨_, w', q', es', hj', hstep', hlike'⟩ := hj.recv hK (.inr (hmin _))
    (by rw [hpeer]; exact hsmall) hx
    (by rw [switchDirection_switchDirection, Function.update_self]; exact hlog) hout
  rw [hpeer] at hstep'
  refine ⟨_, t', _, x, ?_, hj', hsent, rfl, ?_, ?_, ?_, s', p, es, q', es', hstep, ?_, hstep', ?_⟩
  · rw [hstate] at hout
    rw [Net.turn, hsend, ok_bind, hout]
    rfl
  · exact Function.update_of_ne hne _ _
  · simp only [Net.lost, Net.afterRecv, switchDirection_switchDirection, Function.update_self]
    rw [hsent, List.length_append, List.length_singleton]
    omega
  · simp only [Net.lost, Net.afterRecv, switchDirection_switchDirection, Function.update_of_ne hne]
    rw [show net1.sent (switchDirection d) = net.sent (switchDirection d) from
      Function.update_of_ne hne _ _]
    rfl
  · rw [Function.update_of_ne hne.symm, Function.update_self]
    exact hlike
  · rw [Function.update_self]
    exact hlike'

end Joint

def tally (v : View) (xs : List Sent) : Nat := sendsIn v.s.epoch.toNat xs + 81 * v.s.epoch.toNat

/-- The invariant of the alternation: the network's, few messages lost, `d` brings the exchange forward with
the bound `r`, and both parties' messages of their epochs are bounded by what is left of them. -/
structure Lively (u : Setup) (N : Nat) (net : Net) (t : Transcript) (v : Direction → View) (d : Direction)
    (r : Nat) : Prop where
  joint : Joint u net t v
  lost : ∀ d, net.lost d < (resolveMaxJump (some u.params)).toNat
  flow : Flow (v d).s (v (switchDirection d)).s r
  count : ∀ d', tally (v d') (net.sent d') + r ≤ N + 81 * (v (switchDirection d)).s.epoch.toNat

omit [Hash] [StateCodec] [IncrementalKem] in
lemma Flow.epochs {v : Direction → View} {d : Direction} {r : Nat}
    (h : Flow (v d).s (v (switchDirection d)).s r) (hsmall : ∀ d, (v d).s.epoch.toNat + 1 < 2 ^ 64) :
    ∀ d', (v (switchDirection d)).s.epoch.toNat ≤ (v d').s.epoch.toNat ∧
      (v d').s.epoch.toNat ≤ (v (switchDirection d)).s.epoch.toNat + 1 := by
  refine forall_direction d ?_ ⟨le_refl _, Nat.le_succ _⟩
  rcases h.epoch with heq | heq
  · rw [heq]
    exact ⟨le_refl _, Nat.le_succ _⟩
  · rw [heq, toNat_epoch_succ (hsmall _)]
    exact ⟨Nat.le_succ _, le_refl _⟩

namespace Lively
variable {u : Setup} {N : Nat} {net : Net} {t : Transcript} {v : Direction → View} {d : Direction} {r : Nat}

lemma sends_le (h : Lively u N net t v d r) (hsmall : ∀ d, (v d).s.epoch.toNat + 1 < 2 ^ 64)
    (y : Direction) : sendsIn (v y).s.epoch.toNat (net.sent y) ≤ N := by
  have hc := h.count y
  have he := (h.flow.epochs hsmall y).1
  rw [tally] at hc
  omega

/-- What a turn of party `x` does: it brings the exchange forward if it is its part, and otherwise leaves the
bound as it is. -/
structure Moved (u : Setup) (net : Net) (v : Direction → View) (d : Direction) (r : Nat) (x : Direction)
    (net' : Net) (t' : Transcript) (v' : Direction → View) (d' : Direction) (r' : Nat) : Prop where
  joint : Joint u net' t' v'
  lost : ∀ d, net'.lost d < (resolveMaxJump (some u.params)).toNat
  flow : Flow (v' d').s (v' (switchDirection d')).s r'
  gain : 81 * (v (switchDirection d)).s.epoch.toNat + r' + (if x = d then 1 else 0)
    ≤ 81 * (v' (switchDirection d')).s.epoch.toNat + r
  keep : x ≠ d → d' = d
  epoch : (v' x).s.epoch = (v x).s.epoch
  tally_eq : tally (v' x) (net'.sent x) = tally (v x) (net.sent x) + 1
  epochPeer : (v' (switchDirection x)).s.epoch = (v (switchDirection x)).s.epoch ∨
    (v' (switchDirection x)).s.epoch = (v (switchDirection x)).s.epoch + 1
  sends : ∀ y n, sendsIn n (net'.sent y)
    ≤ max (sendsIn n (net.sent y)) (sendsIn (v' y).s.epoch.toNat (net'.sent y))
  tallyPeer : tally (v' (switchDirection x)) (net'.sent (switchDirection x))
      = tally (v (switchDirection x)) (net.sent (switchDirection x)) ∨
    tally (v' (switchDirection x)) (net'.sent (switchDirection x))
      = 81 * (v' (switchDirection x)).s.epoch.toNat

lemma tally_peer (h : Joint u net t v) (hsmall : ∀ d, (v d).s.epoch.toNat + 1 < 2 ^ 64) {y : Direction}
    {w : View} (hepoch : w.s.epoch = (v y).s.epoch ∨ w.s.epoch = (v y).s.epoch + 1) :
    tally w (net.sent y) = tally (v y) (net.sent y) ∨ tally w (net.sent y) = 81 * w.s.epoch.toNat := by
  rw [tally, tally]
  rcases hepoch with heq | heq
  · exact .inl (by rw [heq])
  · right
    rw [sendsIn, List.countP_eq_zero.mpr, Nat.zero_add]
    intro z hz
    have hle := (h.side y).own_le z hz
    rw [heq, toNat_epoch_succ (hsmall y), beq_iff_eq]
    omega

lemma turn (h : Lively u N net t v d r) (hK : IncrementalKem.Correct) (hmin : ∀ d, u.minVersion d = v1)
    (hN : N + 1 < 2 ^ 32) (hsmall : ∀ d, (v d).s.epoch.toNat + 1 < 2 ^ 64) (x : Direction) {rng : Reader}
    (hrng : ∀ n, (rng.read n).isSome) :
    ∃ net' t' v' d' r', net.turn x rng = .ok net' ∧ Moved u net v d r x net' t' v' d' r' := by
  have hcount : sendsIn (v x).s.epoch.toNat (net.sent x) + 1 < 2 ^ 32 := by
    have := h.sends_le hsmall x
    omega
  obtain ⟨net', t', v', y, hturn, hj, hsent, hy, hsent', hlost, hlost', s', p, es, q', es', hstep, hlike,
    hstep', hlike'⟩ := h.joint.turn hK hmin hrng hcount (hsmall _) (h.lost x)
  have hepoch : (v' x).s.epoch = (v x).s.epoch := hlike.epoch.trans (V1State.sendStep_move hstep).1
  have hpeer : (v' (switchDirection x)).s.epoch = (v (switchDirection x)).s.epoch ∨
      (v' (switchDirection x)).s.epoch = (v (switchDirection x)).s.epoch + 1 := by
    rw [hlike'.epoch]
    exact (V1State.recv_move hstep').epoch_cases
  have htally : tally (v' x) (net'.sent x) = tally (v x) (net.sent x) + 1 := by
    rw [tally, tally, hepoch, hsent, sendsIn_append]
    simp only [sendsIn, List.countP_singleton, hy, beq_self_eq_true, if_true]
    omega
  have hsends : ∀ y n, sendsIn n (net'.sent y)
      ≤ max (sendsIn n (net.sent y)) (sendsIn (v' y).s.epoch.toNat (net'.sent y)) := by
    refine forall_direction x (fun n => ?_) fun n => by rw [hsent']; exact le_max_left _ _
    by_cases hn : n = (v' x).s.epoch.toNat
    · rw [hn]
      exact le_max_right _ _
    · have hne : ¬ (v x).s.epoch.toNat = n := fun heq => hn (by rw [hepoch, heq])
      rw [hsent, sendsIn_append]
      simp only [sendsIn, List.countP_singleton, hy, beq_iff_eq, hne, if_false]
      exact le_max_left _ _
  have htally' := tally_peer h.joint hsmall hpeer
  rw [← hsent'] at htally'
  nth_rewrite 2 [hsent'] at htally'
  have hlosts : ∀ d, net'.lost d < (resolveMaxJump (some u.params)).toNat := by
    refine forall_direction x ?_ ?_
    · rw [hlost]
      exact Nat.zero_lt_of_lt (h.lost x)
    · rw [hlost']
      exact h.lost _
  by_cases hx : d = x
  · cases hx
    obtain ⟨r', hflow⟩ := h.flow.forward (hsmall _) (h.joint.side d).wf (h.joint.side _).wf hstep hlike
      hstep' hlike'
    rcases hflow with ⟨hf, hlt⟩ | ⟨hf, hlt⟩
    · exact ⟨net', t', v', d, r', hturn, hj, hlosts, hf, by rw [if_pos rfl]; exact hlt,
        fun hne => absurd rfl hne, hepoch, htally, hpeer, hsends, htally'⟩
    · refine ⟨net', t', v', switchDirection d, r', hturn, hj, hlosts, ?_, ?_, fun hne => absurd rfl hne,
        hepoch, htally, hpeer, hsends, htally'⟩
      · rw [switchDirection_switchDirection]
        exact hf
      · rw [switchDirection_switchDirection, if_pos rfl]
        exact hlt
  · obtain rfl : d = switchDirection x := by
      revert hx
      cases d <;> cases x <;> decide
    have hflow := h.flow
    rw [switchDirection_switchDirection] at hflow
    obtain ⟨hf, _⟩ := hflow.idle hstep hlike hstep' hlike'
    refine ⟨net', t', v', switchDirection x, r, hturn, hj, hlosts, ?_, ?_, fun _ => rfl, hepoch, htally, hpeer,
      hsends, htally'⟩
    · rw [switchDirection_switchDirection]
      exact hf
    · rw [switchDirection_switchDirection, if_neg (Ne.symm hx), hepoch]
      exact le_refl _

section Moved
variable {net' : Net} {t' : Transcript} {v' : Direction → View} {d' x : Direction} {r' : Nat}

lemma Moved.epoch_peer_le (h : Moved u net v d r x net' t' v' d' r')
    (hsmall : ∀ d, (v d).s.epoch.toNat + 1 < 2 ^ 64) :
    (v' (switchDirection x)).s.epoch.toNat ≤ (v (switchDirection x)).s.epoch.toNat + 1 := by
  rcases h.epochPeer with heq | heq
  · rw [heq]
    exact Nat.le_succ _
  · rw [heq, toNat_epoch_succ (hsmall _)]

lemma Moved.epochs_le (h : Moved u net v d r x net' t' v' d' r')
    (hsmall : ∀ d, (v d).s.epoch.toNat + 1 < 2 ^ 64) : ∀ y, (v' y).s.epoch.toNat ≤ (v y).s.epoch.toNat + 1 := by
  refine forall_direction x ?_ (h.epoch_peer_le hsmall)
  rw [h.epoch]
  exact Nat.le_succ _

lemma moved (h : Lively u N net t v d r) (hm : Moved u net v d r x net' t' v' d' r') (hN : 160 ≤ N)
    (hsmall : ∀ d, (v' d).s.epoch.toNat + 1 < 2 ^ 64) : Lively u (N + 1) net' t' v' d' r' := by
  have hgain := hm.gain
  refine ⟨hm.joint, hm.lost, hm.flow, forall_direction x ?_ ?_⟩
  · have hc := h.count x
    have ht := hm.tally_eq
    omega
  · have hc := h.count (switchDirection x)
    rcases hm.tallyPeer with ht | ht
    · omega
    · -- a new epoch is at most one past the one that the bound refers to
      have hr := hm.flow.le
      have hle := (hm.flow.epochs hsmall (switchDirection x)).2
      omega

end Moved

lemma round (h : Lively u N net t v d r) (hK : IncrementalKem.Correct) (hmin : ∀ d, u.minVersion d = v1)
    (hlow : 162 ≤ N) (hN : N + 2 < 2 ^ 32) (hsmall : ∀ d, (v d).s.epoch.toNat + 2 < 2 ^ 64)
    (x : Direction) (rngs : Reader × Reader) (hrng : ∀ n, (rngs.1.read n).isSome ∧ (rngs.2.read n).isSome) :
    ∃ net' t' v' d' r', net.round x rngs = .ok net' ∧ Lively u N net' t' v' d' r' ∧
      81 * (v (switchDirection d)).s.epoch.toNat + r' + 1 ≤ 81 * (v' (switchDirection d')).s.epoch.toNat + r ∧
      (∀ y, (v' y).s.epoch.toNat ≤ (v y).s.epoch.toNat + 1) ∧
      ∀ y n, sendsIn n (net'.sent y) ≤ max (sendsIn n (net.sent y)) (N + 2) := by
  have hsmall0 : ∀ d, (v d).s.epoch.toNat + 1 < 2 ^ 64 := fun d => by have := hsmall d; omega
  obtain ⟨net1, t1, v₁, d1, r1, hturn1, hm1⟩ := h.turn hK hmin (by omega) hsmall0 x fun n => (hrng n).1
  have hsmall1 : ∀ d, (v₁ d).s.epoch.toNat + 1 < 2 ^ 64 := fun d => by
    have := hsmall d
    have := hm1.epochs_le hsmall0 d
    omega
  have h1 := h.moved hm1 (by omega) hsmall1
  obtain ⟨net2, t2, v2, d2, r2, hturn2, hm2⟩ :=
    h1.turn hK hmin (by omega) hsmall1 (switchDirection x) fun n => (hrng n).2
  have hsmall2 : ∀ d, (v2 d).s.epoch.toNat + 1 < 2 ^ 64 := by
    refine forall_direction x ?_ ?_
    · have := hsmall x
      have hle := hm2.epoch_peer_le hsmall1
      rw [switchDirection_switchDirection, hm1.epoch] at hle
      omega
    · rw [hm2.epoch]
      exact hsmall1 _
  -- one of the two turns is of the party that brings the exchange forward
  have hgain : 81 * (v (switchDirection d)).s.epoch.toNat + r2 + 1
      ≤ 81 * (v2 (switchDirection d2)).s.epoch.toNat + r := by
    have hg1 := hm1.gain
    have hg2 := hm2.gain
    by_cases hx : x = d
    · rw [if_pos hx] at hg1
      omega
    · have hd : switchDirection x = d1 := by
        rw [hm1.keep hx]
        revert hx
        cases x <;> cases d <;> decide
      rw [if_pos hd] at hg2
      omega
  have hr := hm2.flow.le
  have h2 := h1.moved hm2 (by omega) hsmall2
  refine ⟨net2, t2, v2, d2, r2, ?_, ⟨hm2.joint, hm2.lost, hm2.flow, forall_direction x ?_ ?_⟩, hgain,
    forall_direction x ?_ ?_, fun y n => ?_⟩
  · rw [Net.round, hturn1, ok_bind]
    exact hturn2
  · have hc := h.count x
    have ht1 := hm1.tally_eq
    have ht2 := hm2.tallyPeer
    have hle := (hm2.flow.epochs hsmall2 x).2
    rw [switchDirection_switchDirection] at ht2
    rcases ht2 with ht2 | ht2 <;> omega
  · have hc := h.count (switchDirection x)
    have ht2 := hm2.tally_eq
    have hle := (hm2.flow.epochs hsmall2 (switchDirection x)).2
    have hepoch := congrArg UInt64.toNat hm2.epoch
    rcases hm1.tallyPeer with ht1 | ht1 <;> omega
  · have hle := hm2.epoch_peer_le hsmall1
    rwa [switchDirection_switchDirection, hm1.epoch] at hle
  · rw [hm2.epoch]
    exact hm1.epoch_peer_le hsmall0
  · have hs1 := hm1.sends y n
    have hs2 := hm2.sends y n
    have hc1 := h1.sends_le hsmall1 y
    have hc2 := h2.sends_le hsmall2 y
    omega

lemma of_joint {C : Nat} (h : Joint u net t v) (hsmall : ∀ d, (v d).s.epoch.toNat + 1 < 2 ^ 64)
    (hlost : ∀ d, net.lost d < (resolveMaxJump (some u.params)).toNat)
    (hcount : ∀ d n, sendsIn n (net.sent d) ≤ C) : ∃ d r, Lively u (C + 162) net t v d r := by
  obtain ⟨d, r, hf⟩ : ∃ d r, Flow (v d).s (v (switchDirection d)).s r := by
    obtain ⟨r, hf | hf⟩ := (h.aligned .a2b).flow
    · exact ⟨.a2b, r, hf⟩
    · exact ⟨.b2a, r, hf⟩
  refine ⟨d, r, h, hlost, hf, fun d' => ?_⟩
  have hr := hf.le
  have hle := (hf.epochs hsmall d').2
  have hc := hcount d' (v d').s.epoch.toNat
  rw [tally]
  omega

lemma rounds (h : Lively u N net t v d r) (hK : IncrementalKem.Correct) (hmin : ∀ d, u.minVersion d = v1)
    (hlow : 162 ≤ N) (hN : N + 2 < 2 ^ 32) (x : Direction) {rngs : Nat → Reader × Reader}
    (hrng : ∀ k n, ((rngs k).1.read n).isSome ∧ ((rngs k).2.read n).isSome) (n : Nat)
    (hsmall : ∀ d, (v d).s.epoch.toNat + n + 1 < 2 ^ 64) :
    ∃ net' t' v' d' r', net.rounds x rngs n = .ok net' ∧ Lively u N net' t' v' d' r' ∧
      81 * (v (switchDirection d)).s.epoch.toNat + r' + n ≤ 81 * (v' (switchDirection d')).s.epoch.toNat + r ∧
      ∀ y, (v' y).s.epoch.toNat ≤ (v y).s.epoch.toNat + n := by
  induction n with
  | zero => exact ⟨net, t, v, d, r, rfl, h, le_refl _, fun _ => le_refl _⟩
  | succ n ih =>
    obtain ⟨net1, t1, v₁, d1, r1, hrounds, h1, hgain1, hle1⟩ :=
      ih fun d => by have := hsmall d; omega
    obtain ⟨net2, t2, v2, d2, r2, hround, h2, hgain2, hle2, _⟩ := h1.round hK hmin hlow hN
      (fun d => by have := hsmall d; have := hle1 d; omega) x (rngs n) (hrng n)
    refine ⟨net2, t2, v2, d2, r2, ?_, h2, by omega, fun y => ?_⟩
    · rw [Net.rounds, hrounds, ok_bind]
      exact hround
    · have := hle1 y
      have := hle2 y
      omega

end Lively

/-- Progress: from every state of a run with any loss, duplication and reordering, if not more messages are
missing than the key window allows for, every send and every delivery of the alternation succeeds, and
after 162 rounds both parties are in a later epoch. -/
theorem progress {u : Setup} (hK : IncrementalKem.Correct) (hmin : ∀ d, u.minVersion d = v1) {net : Net}
    (hrun : NetRun u (2 ^ 63) net)
    (hlost : ∀ d, net.lost d < (resolveMaxJump (some u.params)).toNat) (d : Direction)
    (rngs : Nat → Reader × Reader)
    (hrng : ∀ k n, ((rngs k).1.read n).isSome ∧ ((rngs k).2.read n).isSome) (n : Nat)
    (hsmall : ∀ d, (epochOf (net.state d)).toNat + n < 2 ^ 63) : ∃ net', net.rounds d rngs n = .ok net' ∧
      (162 ≤ n → ∀ d, epochOf (net.state d) < epochOf (net'.state d)) := by
  obtain ⟨hwithin, t, v, hj⟩ := hrun.joint hK (fun d => .inr (hmin d)) (by norm_num) (by norm_num)
  simp only [hj.epochOf_eq] at hsmall
  obtain ⟨d0, r0, hl⟩ := Lively.of_joint hj (fun d => by have := hsmall d; omega) hlost
    fun d n => (hwithin.sends d n).le
  obtain ⟨net', t', v', d', r', hrounds, hl', hgain, hle⟩ := hl.rounds hK hmin (by omega) (by omega) d hrng n
    fun d => by have := hsmall d; omega
  refine ⟨net', hrounds, fun hn y => UInt64.lt_iff_toNat_lt.mpr ?_⟩
  rw [hj.epochOf_eq, hl'.joint.epochOf_eq]
  have hhi := (hl.flow.epochs (fun d => by have := hsmall d; omega) y).2
  have hlo := (hl'.flow.epochs (fun d => by have := hsmall d; have := hle d; omega) y).1
  have hr := hl.flow.le
  have hr' := hl'.flow.pos
  omega

lemma send_initial_error {p : Params} (hv : p.version = v1) (hmin : p.minVersion = v1)
    (hpar : p.chainParams = none) (rng : Reader) : ∃ e, send (initialState p) rng = .error e := by
  cases hsend : send (initialState p) rng with
  | error e => exact ⟨e, rfl⟩
  | ok res =>
    obtain ⟨st, hst, hcase⟩ := send_inv hsend
    rw [initialState, hv, if_neg (by decide), decodeState_encodeState] at hst
    cases hst
    rcases hcase with ⟨hnone, _⟩ | ⟨pb, st', msg, key, _, hstep, _⟩
    · rw [initialPq, hv] at hnone
      cases hnone
    · obtain ⟨_, _, _, _, _, _, _, _, _, _, hch, _⟩ := sendV1_inv hstep
      have hnone : resolveSendChain (initialPq p) = .error .chainNotAvailable := by
        rw [resolveSendChain, initialPq, hmin, hpar]
        rfl
      rw [hnone] at hch
      cases hch

end

/-- The alternation of two fresh parties. -/
theorem progress_fresh :
    let u : Setup := ⟨zeros 32, ⟨0, 0⟩, fun _ => v1⟩
    ∃ net', @Net.rounds zeroHash unaryCodec zeroKem (@Net.start zeroHash unaryCodec u) .a2b
        (fun _ => (zeroReader, zeroReader)) 162 = .ok net' ∧
      ∀ d, @epochOf unaryCodec ((@Net.start zeroHash unaryCodec u).state d)
        < @epochOf unaryCodec (net'.state d) := by
  let _ := zeroHash
  let _ := zeroKem
  let _ := unaryCodec
  intro u
  obtain ⟨v, hj, hone⟩ := Joint.start u
  have hepoch : ∀ d, (epochOf ((Net.start u).state d)).toNat + 162 < 2 ^ 63 := by
    intro d
    rw [hj.epochOf_eq, hone]
    decide
  obtain ⟨net', hrounds, hlt⟩ := progress (u := u) zeroKem_correct (fun _ => rfl) .refl
    (fun _ => by change 0 < 25000; norm_num) .a2b (fun _ => (zeroReader, zeroReader))
    (fun _ _ => ⟨rfl, rfl⟩) 162 hepoch
  exact ⟨net', hrounds, hlt (le_refl _)⟩

/-- Two parties that agree on nil chain parameters do not make progress: neither of them can send. -/
theorem no_turn_without_chain_params :
    let net : Net := ⟨fun d => @initialState zeroHash unaryCodec ⟨d, v1, v1, zeros 32, none⟩,
      fun _ => [], fun _ => 0⟩
    ∀ d rng, ∃ e, @Net.turn zeroHash unaryCodec zeroKem net d rng = .error e := by
  let _ := zeroHash
  let _ := zeroKem
  let _ := unaryCodec
  intro net d rng
  obtain ⟨e, he⟩ := send_initial_error (p := ⟨d, v1, v1, zeros 32, none⟩) rfl rfl rfl rng
  refine ⟨e, ?_⟩
  rw [Net.turn, he]
  rfl

end LibSignal.Spqr
