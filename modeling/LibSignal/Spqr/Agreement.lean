import LibSignal.Spqr.Network
import Mathlib.Logic.Relation

/-!
# The invariant of the network

`Joint` is the invariant of the whole network: both parties have their `Side`, over one transcript, and their
machines are aligned.
-/

namespace LibSignal.Spqr
open Chunked Crypto Lib

def sendsIn (n : Nat) (xs : List Sent) : Nat := xs.countP fun x => x.epoch.toNat == n

lemma keyed_le_sendsIn (n : Nat) (xs : List Sent) : keyed n xs ≤ sendsIn (n + 1) xs :=
  List.countP_mono_left fun _ _ hx => (Bool.and_eq_true_iff.mp hx).1

lemma sendsIn_append (n : Nat) (xs ys : List Sent) : sendsIn n (xs ++ ys) = sendsIn n xs + sendsIn n ys :=
  List.countP_append

lemma forall_direction {P : Direction → Prop} (d : Direction) (h : P d) (hs : P (switchDirection d)) :
    ∀ d', P d' := by
  intro d'
  cases d <;> cases d' <;> first | exact h | exact hs

lemma switchDirection_ne (d : Direction) : switchDirection d ≠ d := by
  cases d <;> decide

section
variable [Hash] [StateCodec] [IncrementalKem]

/-- The limits of a run: the epochs stay below `B`, and no party sends more than the counter of an epoch can
count. -/
structure Net.Within (B : Nat) (net : Net) : Prop where
  epochs : ∀ d, (epochOf (net.state d)).toNat < B
  sends : ∀ d n, sendsIn n (net.sent d) < 2 ^ 31

/-- A run of the network from two fresh parties that stays within the limits. -/
def NetRun (u : Setup) (B : Nat) : Net → Prop :=
  Relation.ReflTransGen (fun net net' => NetStep net net' ∧ net'.Within B) (Net.start u)

structure Joint (u : Setup) (net : Net) (t : Transcript) (v : Direction → View) : Prop where
  side : ∀ d, Side u t d (net.state d) (net.sent d) (net.sent (switchDirection d))
    (net.heard (switchDirection d)) (v d)
  aligned : ∀ d, Aligned d (v d).s (v (switchDirection d)).s
  heard_le : ∀ d, net.heard d ≤ (net.sent d).length

namespace Joint
variable {u : Setup} {net : Net} {t : Transcript} {v : Direction → View}

lemma epochOf_eq (h : Joint u net t v) (d : Direction) : epochOf (net.state d) = (v d).s.epoch := by
  rw [epochOf, (h.side d).opened.machineOf_eq]

lemma side_switch (h : Joint u net t v) (d : Direction) :
    Side u t (switchDirection d) (net.state (switchDirection d)) (net.sent (switchDirection d))
      (net.sent d) (net.heard d) (v (switchDirection d)) := by
  have hs := h.side (switchDirection d)
  rwa [switchDirection_switchDirection] at hs

variable {d : Direction}

lemma peer_le (h : Joint u net t v) (htag : (v d).s.tag ≠ .ct2Sampled) :
    ∀ x ∈ net.sent (switchDirection d), x.epoch.toNat ≤ (v d).s.epoch.toNat := by
  intro x hx
  have hle := (h.side_switch d).own_le x hx
  rcases (h.aligned d).nearPeer with hp | ⟨_, hct2⟩
  · omega
  · exact absurd hct2 htag

lemma send (h : Joint u net t v) (hcount : sendsIn (v d).s.epoch.toNat (net.sent d) + 1 < 2 ^ 32) {rng : Reader}
    {res : SendResult} (hsend : Spqr.send (net.state d) rng = .ok res) :
    ∃ t' w s' es p idx, Joint u (net.afterSend d res) t' (Function.update v d w) ∧
      Logged u t' d w ((net.afterSend d res).sent d) (net.sent d).length
        ⟨(v d).s.epoch, res.msg, res.key⟩ p idx ∧
      (v d).s.sendStep rng = .ok (s', p, es) ∧ V1State.Like s' w.s := by
  have hpos : 1 ≤ (v d).s.epoch.toNat := by have := (h.side d).coupled.send_lt; omega
  have hkeyed : keyed ((v d).s.epoch.toNat - 1) (net.sent d) + 1 < 2 ^ 32 := by
    have hle := keyed_le_sendsIn ((v d).s.epoch.toNat - 1) (net.sent d)
    rw [Nat.sub_add_cancel hpos] at hle
    omega
  obtain ⟨t', w, s', es, p, idx, hsam, hside, hlog, hstep, hlike⟩ := (h.side d).send (h.aligned d).role hkeyed
    (fun ht => h.peer_le (by rw [ht]; decide)) hsend
  obtain ⟨hepoch, hmove⟩ := V1State.sendStep_move hstep
  have hne := switchDirection_ne d
  have hal := ((h.aligned d).send hepoch hmove).of_like hlike
  have hrole := (h.aligned d).role
  have hsent : (net.afterSend d res).sent d = net.sent d ++ [⟨(v d).s.epoch, res.msg, res.key⟩] := by
    rw [← h.epochOf_eq]
    exact Function.update_self _ _ _
  refine ⟨t', w, s', es, p, idx, ⟨?_, ?_, ?_⟩, by rw [hsent]; exact hlog, hstep, hlike⟩
  · refine forall_direction d ?_ ?_
    · rw [hsent]
      simp only [Net.afterSend, Function.update_self, Function.update_of_ne hne]
      exact hside
    · simp only [Net.afterSend, Function.update_self, Function.update_of_ne hne,
        switchDirection_switchDirection]
      -- what `d` has sampled belongs to its own role
      refine (h.side_switch d).peer_sent hsam.extend (fun n hn => hsam.seed n ?_)
        (fun n hn => hsam.coin n ?_) (h.heard_le d) _
      · rintro rfl ht
        rw [ekTurn_switch, ← hrole, ht] at hn
        cases hn
      · rintro rfl ht
        rw [ekTurn_switch, ← hrole, ht] at hn
        cases hn
  · refine forall_direction d ?_ ?_
    · rw [Function.update_self, Function.update_of_ne hne]
      exact hal
    · rw [Function.update_of_ne hne, switchDirection_switchDirection, Function.update_self]
      exact hal.symm
  · refine forall_direction d ?_ ?_
    · simp only [Net.afterSend, Function.update_self, List.length_append]
      exact (h.heard_le d).trans (Nat.le_add_right _ _)
    · simp only [Net.afterSend, Function.update_of_ne hne]
      exact h.heard_le _

lemma send_ok (h : Joint u net t v) (hmin : u.minVersion d = v1) {rng : Reader}
    (hrng : ∀ n, (rng.read n).isSome) : ∃ res, Spqr.send (net.state d) rng = .ok res := by
  obtain ⟨⟨s', p, es⟩, hstep⟩ := V1State.sendStep_ok (h.side d).wf hrng
  obtain ⟨hepoch, hmove⟩ := V1State.sendStep_move hstep
  obtain ⟨c1, dd, c2, hadd, hkey, _⟩ := (h.side d).coupled.send hepoch hmove
    (fun _ seed _ => SendOk.new (h.side d).own_le seed)
    (fun hsome seed _ => RecvOk.new (h.peer_le (by rw [hmove.tag_of_secret hsome]; decide)) seed)
  exact (h.side d).opened.send_ok (by change u.minVersion d > v0; rw [hmin]; decide) hstep hadd hkey

lemma recv (h : Joint u net t v) (hK : IncrementalKem.Correct)
    (hmin : u.minVersion d = v0 ∨ u.minVersion d = v1) (hsmall : (v d).s.epoch.toNat + 1 < 2 ^ 64) {k : Nat}
    {x : Sent} (hx : (net.sent (switchDirection d))[k]? = some x) {p : Payload} {idx : UInt32}
    (hl : Logged u t (switchDirection d) (v (switchDirection d)) (net.sent (switchDirection d)) k x p idx)
    {res : RecvResult} (hrecv : Spqr.recv (net.state d) x.msg = .ok res) :
    res.key = x.key ∧ ∃ w s' es, Joint u (net.afterRecv d k res) t (Function.update v d w) ∧
      (v d).s.recv ⟨x.epoch, p⟩ = .ok (s', es) ∧ V1State.Like s' w.s := by
  obtain ⟨hkey, s', es, w, hstep, hlike, hside⟩ := (h.side d).recv_ok hK hmin (h.side_switch d)
    (h.aligned d) hsmall hx hl hrecv
  have hne := switchDirection_ne d
  have hal := ((h.aligned d).recv hsmall hl.past hstep).of_like hlike
  refine ⟨hkey, w, s', es, ⟨?_, ?_, ?_⟩, hstep, hlike⟩
  · refine forall_direction d ?_ ?_
    · simp only [Net.afterRecv, Function.update_self]
      exact hside
    · simp only [Net.afterRecv, Function.update_of_ne hne, switchDirection_switchDirection,
        Function.update_of_ne hne.symm]
      exact h.side_switch d
  · refine forall_direction d ?_ ?_
    · rw [Function.update_self, Function.update_of_ne hne]
      exact hal
    · rw [Function.update_of_ne hne, switchDirection_switchDirection, Function.update_self]
      exact hal.symm
  · refine forall_direction d ?_ ?_
    · simp only [Net.afterRecv, Function.update_of_ne hne.symm]
      exact h.heard_le d
    · simp only [Net.afterRecv, Function.update_self]
      exact max_le (h.heard_le _) (List.getElem?_eq_some_iff.mp hx).1

lemma start (u : Setup) : ∃ v, Joint u (Net.start u) .nothing v ∧ ∀ d, (v d).s.epoch = 1 := by
  have hopen : ∀ d, ∃ s, V1State.Like (u.party d).start s ∧
      Opened (u.party d).negotiation (initialState (u.party d)) s (.new u.authKey d u.params) :=
    fun d => Opened.initial rfl rfl
  choose s hlike hop using hopen
  have htag : ∀ d, (s d).tag = if d = .a2b then .keysUnsampled else .noHeaderReceived := by
    intro d
    rw [(hlike d).tag]
    cases d <;> rfl
  have hepoch : ∀ d, (s d).epoch = 1 := by
    intro d
    rw [(hlike d).epoch]
    cases d <;> rfl
  refine ⟨fun d => ⟨s d, .new u.authKey d u.params, []⟩, ⟨fun d => ?_, fun d => ?_, fun d => le_refl 0⟩, hepoch⟩
  · refine ⟨hop d, (hlike d).wf (Params.start_wf _), ?_, ?_, rfl, ?_, fun _ _ _ => rfl, fun _ _ _ => rfl,
      ?_, List.Pairwise.nil⟩
    · refine Transcript.Follows.of_like (hlike d) ?_
      cases d with
      | a2b => exact rfl
      | b2a => exact ⟨rfl, .inl rfl⟩
    · refine Coupled.of_like ?_ (hlike d)
      exact Coupled.initial (u.party d) u.params (fun seed _ => SendOk.new (by simp [Net.start]) seed)
        (fun seed _ => RecvOk.new (by simp [Net.start]) seed)
    · intro i es hi
      cases hi
    · intro k x hx
      cases hx
  · refine ⟨?_, ?_, ?_, ?_, ?_, ?_⟩
    all_goals
      dsimp only
      simp only [htag, hepoch]
    all_goals cases d <;> simp [switchDirection, Tag.isEk, ekTurn, Tag.needs]

end Joint

lemma Net.start_within (u : Setup) {B : Nat} (hB : 1 < B) : (Net.start u).Within B := by
  obtain ⟨v, hj, hv⟩ := Joint.start u
  refine ⟨fun d => ?_, fun d n => ?_⟩
  · rw [hj.epochOf_eq, hv]
    exact hB
  · change 0 < 2 ^ 31
    omega

lemma NetStep.joint {u : Setup} {net net' : Net} {t : Transcript} {v : Direction → View}
    (h : NetStep net net') (hK : IncrementalKem.Correct)
    (hmin : ∀ d, u.minVersion d = v0 ∨ u.minVersion d = v1) (hj : Joint u net t v)
    (hsmall : ∀ d, (v d).s.epoch.toNat + 1 < 2 ^ 64) (hsends : ∀ d n, sendsIn n (net'.sent d) < 2 ^ 31) :
    ∃ t' v', Joint u net' t' v' := by
  cases h with
  | send d hsend =>
    have hcount := hsends d (v d).s.epoch.toNat
    simp only [Net.afterSend, Function.update_self, sendsIn_append] at hcount
    obtain ⟨t', w, _, _, _, _, hj', _⟩ := hj.send (by omega) hsend
    exact ⟨t', _, hj'⟩
  | recv d hx hrecv =>
    obtain ⟨p, idx, hl⟩ := (hj.side_switch d).log _ _ hx
    obtain ⟨_, w, _, _, hj', _⟩ := hj.recv hK (hmin d) (hsmall d) hx hl hrecv
    exact ⟨t, _, hj'⟩

lemma NetRun.joint {u : Setup} {B : Nat} {net : Net} (h : NetRun u B net) (hK : IncrementalKem.Correct)
    (hmin : ∀ d, u.minVersion d = v0 ∨ u.minVersion d = v1) (hone : 1 < B) (hB : B < 2 ^ 64) :
    net.Within B ∧ ∃ t v, Joint u net t v := by
  induction h with
  | refl =>
    obtain ⟨v, hv, _⟩ := Joint.start u
    exact ⟨Net.start_within u hone, _, v, hv⟩
  | tail _ hstep ih =>
    obtain ⟨hwithin, t, v, hj⟩ := ih
    refine ⟨hstep.2, hstep.1.joint hK hmin hj (fun d => ?_) hstep.2.sends⟩
    have hlt := hwithin.epochs d
    rw [hj.epochOf_eq] at hlt
    omega

end

end LibSignal.Spqr
