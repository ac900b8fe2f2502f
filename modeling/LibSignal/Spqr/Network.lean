import LibSignal.Spqr.Alignment
import LibSignal.Spqr.Coupling
import LibSignal.Spqr.Opened
import LibSignal.Spqr.Transcript

/-!
# Two ratchets and a network

Two parties, named by their directions, run the ratchet over a network that delivers what was sent in any
order, any number of times, or never.
-/

namespace LibSignal.Spqr
open Chunked Crypto Lib
open ChainEpochDirection (Tracks)

/-- A message in a party's log: the sender's epoch, the bytes, and the key that the send returned. -/
structure Sent where
  epoch : UInt64
  msg : SerializedMessage
  key : Option Bytes
deriving DecidableEq

/-- Two parties and a network. `heard d` is one past the position of the latest of `d`'s messages that the
peer has received. -/
structure Net where
  state : Direction → SerializedState
  sent : Direction → List Sent
  heard : Direction → Nat

structure Setup where
  authKey : Bytes
  params : ChainParams
  minVersion : Direction → Version

def Setup.party (u : Setup) (d : Direction) : Params :=
  ⟨d, v1, u.minVersion d, u.authKey, some u.params⟩

section
variable [Hash] [StateCodec]

def epochOf (b : SerializedState) : UInt64 :=
  match machineOf b with
  | .ok s => s.epoch
  | .error _ => 0

namespace Net

def start (u : Setup) : Net := ⟨fun d => initialState (u.party d), fun _ => [], fun _ => 0⟩

def afterSend (net : Net) (d : Direction) (res : SendResult) : Net :=
  { state := Function.update net.state d res.state
    sent := Function.update net.sent d
      (net.sent d ++ [⟨epochOf (net.state d), res.msg, res.key⟩])
    heard := net.heard }

def afterRecv (net : Net) (d : Direction) (k : Nat) (res : RecvResult) : Net :=
  { state := Function.update net.state d res.state
    sent := net.sent
    heard := Function.update net.heard (switchDirection d)
      (max (net.heard (switchDirection d)) (k + 1)) }

end Net

variable [IncrementalKem]

/-- One step of the network: a send, or the receipt of any message that the peer has sent. Calls that fail
change nothing. -/
inductive NetStep (net : Net) : Net → Prop
  | send (d : Direction) {rng : Reader} {res : SendResult} (h : send (net.state d) rng = .ok res) :
      NetStep net (net.afterSend d res)
  | recv (d : Direction) {k : Nat} {x : Sent} {res : RecvResult}
      (hx : (net.sent (switchDirection d))[k]? = some x) (h : recv (net.state d) x.msg = .ok res) :
      NetStep net (net.afterRecv d k res)

end

/-! ## Counting -/

def keyed (n : Nat) (xs : List Sent) : Nat :=
  xs.countP fun x => x.epoch.toNat == n + 1 && x.key.isSome

lemma keyed_append (n : Nat) (xs ys : List Sent) : keyed n (xs ++ ys) = keyed n xs + keyed n ys :=
  List.countP_append

variable {n : Nat} {x : Sent}

lemma keyed_eq_zero {xs : List Sent} (h : ∀ x ∈ xs, x.epoch.toNat ≤ n) : keyed n xs = 0 := by
  refine List.countP_eq_zero.mpr fun x hx => ?_
  have := h x hx
  simp only [Bool.and_eq_true, beq_iff_eq, not_and]
  omega

lemma keyed_singleton_of_ne (h : x.epoch.toNat ≠ n + 1) : keyed n [x] = 0 := by
  simp [keyed, h]

lemma keyed_singleton_none (h : x.key = none) : keyed n [x] = 0 := by
  simp [keyed, h]

lemma keyed_singleton (h : x.epoch.toNat = n + 1) (hk : x.key.isSome) : keyed n [x] = 1 := by
  simp [keyed, h, hk]

lemma keyed_le_length (n : Nat) (xs : List Sent) : keyed n xs ≤ xs.length :=
  List.countP_le_length

section
variable [Hash]

/-- A send direction counts the party's messages with a key. -/
def SendOk (own : List Sent) (n : Nat) (seed : Bytes) (d : ChainEpochDirection) : Prop :=
  d.Tracks seed ∧ d.ctr.toNat = keyed n own

/-- A receive direction is at the latest message heard, if this one is of the same epoch or earlier, and
otherwise not ahead of the messages up to it. -/
structure RecvOk (peer : List Sent) (heard : Nat) (n : Nat) (seed : Bytes) (d : ChainEpochDirection) :
    Prop where
  tracks : d.Tracks seed
  le : d.ctr.toNat ≤ keyed n (peer.take heard)
  ge : (∀ x ∈ peer.take heard, x.epoch.toNat ≤ n + 1) → keyed n (peer.take heard) ≤ d.ctr.toNat

variable {d : ChainEpochDirection} {heard k n : Nat} {peer : List Sent} {seed : Bytes} {x : Sent}

lemma SendOk.new {own : List Sent} (h : ∀ x ∈ own, x.epoch.toNat ≤ n) (seed : Bytes) :
    SendOk own n seed (.new seed) :=
  ⟨ChainEpochDirection.new_tracks seed, (keyed_eq_zero h).symm⟩

lemma RecvOk.new (h : ∀ x ∈ peer, x.epoch.toNat ≤ n) (seed : Bytes) : RecvOk peer heard n seed (.new seed) := by
  refine ⟨ChainEpochDirection.new_tracks seed, Nat.zero_le _, fun _ => ?_⟩
  rw [keyed_eq_zero fun x hx => h x (List.mem_of_mem_take hx)]
  exact Nat.zero_le _

lemma RecvOk.peer_sent (h : RecvOk peer heard n seed d) (hle : heard ≤ peer.length) (x : Sent) :
    RecvOk (peer ++ [x]) heard n seed d := by
  refine ⟨h.tracks, ?_, ?_⟩
  all_goals rw [List.take_append_of_le_length hle]
  · exact h.le
  · exact h.ge

abbrev Sorted (xs : List Sent) : Prop := xs.Pairwise fun x y => x.epoch.toNat ≤ y.epoch.toNat

omit [Hash] in
lemma Sorted.le_of_take {xs : List Sent} (h : Sorted xs) (hx : xs[k]? = some x) :
    ∀ y ∈ xs.take (k + 1), y.epoch.toNat ≤ x.epoch.toNat := by
  intro y hy
  obtain ⟨hk, hx⟩ := List.getElem?_eq_some_iff.mp hx
  obtain ⟨i, hi, rfl⟩ := List.mem_take_iff_getElem.mp hy
  rw [← hx]
  rcases Nat.lt_or_ge i k with hlt | hge
  · exact List.pairwise_iff_getElem.mp h i k (by omega) hk hlt
  · obtain rfl : i = k := by omega
    exact le_refl _

omit [Hash] in
lemma keyed_take_mono (n : Nat) (xs : List Sent) {j : Nat} (h : j ≤ k) :
    keyed n (xs.take j) ≤ keyed n (xs.take k) :=
  (List.take_sublist_take_left h).countP_le

lemma RecvOk.caught_up {d' : ChainEpochDirection} (h : RecvOk peer heard n seed d) (ht : d'.Tracks seed)
    (hctr : d'.ctr.toNat = max d.ctr.toNat (keyed n (peer.take (k + 1)))) :
    RecvOk peer (max heard (k + 1)) n seed d' := by
  refine ⟨ht, ?_, fun hall => ?_⟩
  · rw [hctr]
    exact max_le (h.le.trans (keyed_take_mono n peer (le_max_left _ _)))
      (keyed_take_mono n peer (le_max_right _ _))
  · rcases Nat.le_total (k + 1) heard with hle | hle
    · rw [max_eq_left hle] at hall ⊢
      rw [hctr]
      exact (h.ge hall).trans (le_max_left _ _)
    · rw [max_eq_right hle, hctr]
      exact le_max_right _ _

lemma RecvOk.other (h : RecvOk peer heard n seed d) (hsorted : Sorted peer) (hx : peer[k]? = some x)
    (hpos : 1 ≤ x.epoch.toNat) (hn : n ≠ x.epoch.toNat - 1) : RecvOk peer (max heard (k + 1)) n seed d := by
  rcases Nat.le_total (k + 1) heard with hle | hle
  · rw [max_eq_left hle]
    exact h
  rw [max_eq_right hle]
  refine ⟨h.tracks, h.le.trans (keyed_take_mono n peer hle), fun hall => ?_⟩
  have hxn : x.epoch.toNat ≤ n + 1 := by
    obtain ⟨hk, hx'⟩ := List.getElem?_eq_some_iff.mp hx
    refine hall x ?_
    rw [← hx']
    exact List.mem_take_iff_getElem.mpr ⟨k, by omega, rfl⟩
  rw [keyed_eq_zero fun y hy => (hsorted.le_of_take hx y hy).trans (by omega)]
  exact Nat.zero_le _

lemma RecvOk.behind (h : RecvOk peer heard n seed d) (hall : ∀ y ∈ peer, y.epoch.toNat ≤ n + 1)
    (hx : peer[k]? = some x) (hnew : heard ≤ k) (hepoch : x.epoch.toNat = n + 1) (hkey : x.key.isSome) :
    d.ctr.toNat < keyed n (peer.take (k + 1)) ∧ keyed n (peer.take (k + 1)) - d.ctr.toNat ≤ k + 1 - heard := by
  have hle := h.le
  have hge := h.ge fun y hy => hall y (List.mem_of_mem_take hy)
  constructor
  · rw [List.take_add_one, keyed_append, hx, Option.toList_some, keyed_singleton hepoch hkey]
    exact Nat.lt_succ_of_le (hle.trans (keyed_take_mono n peer hnew))
  · obtain ⟨j, hj⟩ := Nat.exists_eq_add_of_le (show heard ≤ k + 1 by omega)
    rw [hj, List.take_add, keyed_append]
    have hlen := keyed_le_length n ((peer.drop heard).take j)
    have htake := List.length_take_le j (peer.drop heard)
    omega

/-! ## One party -/

/-- What a stored state stands for: the machine, the chain, and the secrets folded so far. -/
structure View where
  s : V1State
  c : Chain
  fs : List EpochSecret

variable [StateCodec] [IncrementalKem]

structure Logged (u : Setup) (t : Transcript) (d : Direction) (v : View) (own : List Sent) (k : Nat)
    (x : Sent) (p : Payload) (idx : UInt32) : Prop where
  msg : x.msg = serializeMessage ⟨x.epoch, p⟩ idx
  epoch_pos : 1 ≤ x.epoch.toNat
  ack : p ≠ .ct1Ack false
  carries : t.Carries u.authKey ⟨x.epoch, p⟩
  past : v.s.Past x.epoch p.emits
  epoch_le : x.epoch.toNat ≤ v.fs.length + 1
  index : idx.toNat = keyed (x.epoch.toNat - 1) (own.take (k + 1))
  key : (x.key = none ∧ idx = 0 ∧ x.epoch = 1 ∧ u.minVersion d ≤ v0) ∨
    (idx ≠ 0 ∧ x.key =
      some (streamKey (Chain.seedAt u.authKey v.fs (x.epoch.toNat - 1) d) idx.toNat))

structure Side (u : Setup) (t : Transcript) (d : Direction) (b : SerializedState)
    (own peer : List Sent) (heard : Nat) (v : View) : Prop where
  opened : Opened (u.party d).negotiation b v.s v.c
  wf : v.s.Wf
  follows : t.Follows u.authKey v.s
  coupled : Coupled (SendOk own) (RecvOk peer heard) u.authKey d v.fs v.s v.c
  params : v.c.params = u.params
  secrets : ∀ i es, v.fs[i]? = some es → t.secret (i + 1) = some es.secret
  unseeded : ∀ n, ekTurn d n = true →
    (v.s.epoch.toNat < n ∨ (v.s.epoch.toNat = n ∧ v.s.tag = .keysUnsampled)) → t.seed n = none
  untossed : ∀ n, ekTurn d n = false →
    (v.s.epoch.toNat < n ∨ (v.s.epoch.toNat = n ∧ v.s.tag.stage ≤ 1)) → t.coin n = none
  log : ∀ k x, own[k]? = some x → ∃ p idx, Logged u t d v own k x p idx
  sorted : Sorted own

namespace Side
variable {u : Setup} {t t' : Transcript} {d : Direction} {b : SerializedState}
  {own peer : List Sent} {heard : Nat} {v : View}

lemma own_le (h : Side u t d b own peer heard v) : ∀ x ∈ own, x.epoch.toNat ≤ v.s.epoch.toNat := by
  intro x hx
  obtain ⟨k, hk⟩ := List.mem_iff_getElem?.mp hx
  obtain ⟨p, idx, hl⟩ := h.log k x hk
  exact hl.past.epoch_le

omit [StateCodec] [IncrementalKem] in
lemma storable {fs : List EpochSecret} {s : V1State} {c : Chain} {authKey : Bytes}
    (h : Coupled (SendOk own) (RecvOk peer heard) authKey d fs s c) : c.Storable := by
  intro l hl
  obtain ⟨i, hi⟩ := List.mem_iff_getElem?.mp hl
  have hok := h.chain.window.link i l hi
  have hlen : ∀ {seed : Bytes} {d : ChainEpochDirection}, seed.length = 32 → d.Tracks seed →
      d.next.length = 32 := by
    intro seed d hseed ht
    rw [ht.next]
    exact length_streamNext hseed _
  refine ⟨?_, .inr (hlen (Chain.length_seedAt _ _ _ _) hok.recv.tracks)⟩
  by_cases hlt : c.lo + i < c.sendEpoch.toNat
  · exact .inl (hok.cleared hlt)
  · exact .inr (hlen (Chain.length_seedAt _ _ _ _) (hok.send (by omega)).1)

lemma peer_sent (h : Side u t d b own peer heard v) (hx : t.Extends t')
    (hseed : ∀ n, ekTurn d n = true → t'.seed n = t.seed n)
    (hcoin : ∀ n, ekTurn d n = false → t'.coin n = t.coin n) (hle : heard ≤ peer.length) (x : Sent) :
    Side u t' d b own (peer ++ [x]) heard v := by
  refine ⟨h.opened, h.wf, h.follows.mono hx, ?_, h.params,
    fun i es hi => hx.secret (h.secrets i es hi), fun n hn hc => ?_, fun n hn hc => ?_, ?_, h.sorted⟩
  · exact h.coupled.mono (fun _ _ _ hd => hd) fun _ _ _ hd => hd.peer_sent hle x
  · rw [hseed n hn]
    exact h.unseeded n hn hc
  · rw [hcoin n hn]
    exact h.untossed n hn hc
  · intro k y hy
    obtain ⟨p, idx, hl⟩ := h.log k y hy
    exact ⟨p, idx, { hl with carries := hl.carries.mono hx }⟩

variable {es : Option EpochSecret} {p : Payload} {res : SendResult} {s' : V1State}

omit [StateCodec] in
lemma logged_later {k : Nat} {y : Sent} {idx : UInt32} {c' : Chain} {own' : List Sent} (gs : List EpochSecret)
    (hx : t.Extends t') (hl : Logged u t d v own k y p idx) (hpast : ∀ e k, v.s.Past e k → s'.Past e k)
    (htake : own'.take (k + 1) = own.take (k + 1)) : Logged u t' d ⟨s', c', v.fs ++ gs⟩ own' k y p idx := by
  have hle := hl.epoch_le
  refine ⟨hl.msg, hl.epoch_pos, hl.ack, hl.carries.mono hx, hpast _ _ hl.past, ?_, ?_, ?_⟩
  · simp only [List.length_append]
    omega
  · rw [htake]
    exact hl.index
  · have hseed : Chain.seedAt u.authKey (v.fs ++ gs) (y.epoch.toNat - 1) d
        = Chain.seedAt u.authKey v.fs (y.epoch.toNat - 1) d := by
      rw [Chain.seedAt, Chain.seedAt, Chain.epochGen_append _ (by omega)]
    rw [hseed]
    exact hl.key

omit [StateCodec] in
lemma secrets_later {fs : List EpochSecret} {n : Nat} (hx : t.Extends t')
    (h : ∀ i z, fs[i]? = some z → t.secret (i + 1) = some z.secret)
    (hes : ∀ z, es = some z → t'.secret n = some z.secret ∧ fs.length + 1 = n) :
    ∀ i z, (fs ++ es.toList)[i]? = some z → t'.secret (i + 1) = some z.secret := by
  intro i z hi
  rcases Nat.lt_or_ge i fs.length with hlt | hge
  · rw [List.getElem?_append_left hlt] at hi
    exact hx.secret (h i z hi)
  · rw [List.getElem?_append_right hge] at hi
    cases es with
    | none => cases hi
    | some y =>
      obtain ⟨hy, hlen⟩ := hes y rfl
      obtain ⟨hi0, hz⟩ := List.getElem?_eq_some_iff.mp hi
      simp only [Option.toList_some, List.length_singleton] at hi0
      simp only [Option.toList_some, List.getElem_singleton] at hz
      rw [← hz, show i + 1 = n by omega]
      exact hy

lemma of_sent (h : Side u t d b own peer heard v) (hrole : v.s.tag.isEk = ekTurn d v.s.epoch.toNat)
    {s'' : V1State} {c' : Chain} {b' : SerializedState} {x : Sent} (hsam : Transcript.Samples v.s t t')
    (hepoch : s'.epoch = v.s.epoch) (hmove : V1State.SendMove v.s s' es) (hlike : V1State.Like s' s'')
    (hwf : s'.Wf) (hf : t'.Follows u.authKey s') (hxe : x.epoch = v.s.epoch)
    (hsec : ∀ z, es = some z → t'.secret v.s.epoch.toNat = some z.secret ∧
      v.fs.length + 1 = v.s.epoch.toNat) (hop : Opened (u.party d).negotiation b' s'' c')
    (hco : Coupled (SendOk (own ++ [x])) (RecvOk peer heard) u.authKey d (v.fs ++ es.toList) s'' c')
    (hpar : c'.params = u.params)
    (hnew : ∃ p idx, Logged u t' d ⟨s'', c', v.fs ++ es.toList⟩ (own ++ [x]) own.length x p idx) :
    Side u t' d b' (own ++ [x]) peer heard ⟨s'', c', v.fs ++ es.toList⟩ := by
  have htag := hlike.tag
  have hep : s''.epoch = v.s.epoch := hlike.epoch.trans hepoch
  refine ⟨hop, hlike.wf hwf, hf.of_like hlike, hco, hpar, ?_, ?_, ?_, ?_, ?_⟩
  · exact secrets_later hsam.extend h.secrets hsec
  · intro n hn hc
    dsimp only at hc
    rw [hep, htag] at hc
    -- after a send the state is not `keysUnsampled`
    have hku : s'.tag ≠ .keysUnsampled := by
      cases hmove with
      | again ht hku _ => rw [ht]; exact hku
      | sampleKeys _ ht => rw [ht]; decide
      | sampleCt1 _ ht => rw [ht]; decide
    rcases hc with hlt | ⟨_, hbad⟩
    · rw [hsam.seed n (fun heq => by omega)]
      exact h.unseeded n hn (.inl hlt)
    · exact absurd hbad hku
  · intro n hn hc
    dsimp only at hc
    rw [hep, htag] at hc
    rcases hc with hlt | ⟨heq, hstage⟩
    · rw [hsam.coin n (fun heq => by omega)]
      exact h.untossed n hn (.inl hlt)
    · rw [← heq] at hn
      rw [hn] at hrole
      cases hmove with
      | again ht _ hhr =>
        rw [hsam.coin n fun _ => hhr]
        exact h.untossed n (by rw [← heq]; exact hn) (.inr ⟨heq, by rw [← ht]; exact hstage⟩)
      | sampleKeys ht _ => rw [ht] at hrole; cases hrole
      | sampleCt1 _ ht => rw [ht] at hstage; exact absurd hstage (by decide)
  · intro k y hy
    rcases Nat.lt_or_ge k own.length with hlt | hge
    · rw [List.getElem?_append_left hlt] at hy
      obtain ⟨p, idx, hl⟩ := h.log k y hy
      exact ⟨p, idx, logged_later _ hsam.extend hl
        (fun e k hp => (hp.send hepoch hmove).of_like hlike) (List.take_append_of_le_length (by omega))⟩
    · rw [List.getElem?_append_right hge] at hy
      have hk : k - own.length = 0 := by
        by_contra hne
        rw [List.getElem?_eq_none (by simp only [List.length_singleton]; omega)] at hy
        cases hy
      rw [hk] at hy
      cases hy
      obtain rfl : k = own.length := by omega
      exact hnew
  · refine List.pairwise_append.mpr ⟨h.sorted, List.pairwise_singleton _ _, ?_⟩
    intro y hy z hz
    rw [List.mem_singleton.mp hz, hxe]
    exact h.own_le y hy

/-- What the chain did for a send: the new message `x` with the index `idx`, and the state stored. -/
structure Drawn (u : Setup) (d : Direction) (own peer : List Sent) (heard : Nat) (v : View) (s' : V1State)
    (p : Payload) (es : Option EpochSecret) (x : Sent) (b' : SerializedState) (s'' : V1State) (c' : Chain)
    (idx : UInt32) : Prop where
  like : V1State.Like s' s''
  opened : Opened (u.party d).negotiation b' s'' c'
  coupled : Coupled (SendOk (own ++ [x])) (RecvOk peer heard) u.authKey d (v.fs ++ es.toList) s'' c'
  params : c'.params = u.params
  msg : x.msg = serializeMessage ⟨x.epoch, p⟩ idx
  index : idx.toNat = keyed (x.epoch.toNat - 1) (own ++ [x])
  key : (x.key = none ∧ idx = 0 ∧ x.epoch = 1 ∧ u.minVersion d ≤ v0) ∨
    (idx ≠ 0 ∧ x.key =
      some (streamKey (Chain.seedAt u.authKey (v.fs ++ es.toList) (x.epoch.toNat - 1) d) idx.toNat))

lemma drawn_open (h : Side u t d b own peer heard v) (hepoch : s'.epoch = v.s.epoch)
    (hmove : V1State.SendMove v.s s' none)
    (hnew : chainFromVersionNegotiation (u.party d).negotiation = .ok v.c) (hmin : u.minVersion d ≤ v0)
    (hmsg : res.msg = serializeMessage ⟨v.s.epoch, p⟩ 0) (hkey : res.key = none)
    (hstore : ∃ s'', V1State.Like s' s'' ∧ Opened (u.party d).negotiation res.state s'' v.c) :
    ∃ s'', Drawn u d own peer heard v s' p none ⟨v.s.epoch, res.msg, res.key⟩ res.state s'' v.c 0 := by
  obtain ⟨s'', hlike, hop⟩ := hstore
  have hc : v.c = .new u.authKey d u.params := (Except.ok.inj hnew).symm
  have hzero : keyed 0 own = 0 := by
    obtain ⟨l, hl, hok⟩ := h.coupled.chain.window.exists_link (n := 0)
      (by rw [hc]; exact le_refl _) (Nat.zero_le _)
    have hctr := (hok.send (by rw [hc]; exact le_refl _)).2
    rw [hc] at hl
    cases hl
    exact hctr.symm
  obtain ⟨hone, hahead⟩ : v.s.epoch.toNat = 1 ∧ v.s.tag.ahead = false := by
    have hcur := h.coupled.current
    have hlt := h.coupled.send_lt
    rw [hc] at hcur hlt
    have hcur' : 1 = v.s.epoch.toNat + (if v.s.tag.ahead then 1 else 0) := hcur
    split at hcur'
    · omega
    · rename_i ha
      exact ⟨hcur'.symm, Bool.eq_false_iff.mpr ha⟩
  have hahead' : s'.tag.ahead = false := by
    cases hmove with
    | again ht => rw [ht]; exact hahead
    | sampleKeys _ ht => rw [ht]; rfl
  have hmono : Coupled (SendOk (own ++ [⟨v.s.epoch, res.msg, res.key⟩])) (RecvOk peer heard)
      u.authKey d v.fs v.s v.c := by
    refine h.coupled.mono (fun n seed dd hd => ⟨hd.1, ?_⟩) (fun _ _ _ hd => hd)
    rw [keyed_append, keyed_singleton_none hkey]
    exact hd.2
  refine ⟨s'', hlike, hop, ?_, h.params, hmsg, ?_, .inl ⟨hkey, rfl, UInt64.toNat_inj.mp hone, hmin⟩⟩
  · rw [Option.toList_none, List.append_nil]
    refine Coupled.of_like ⟨hmono.chain, ?_, ?_, ?_⟩ hlike
    · rw [hahead', hepoch, hone, hc]
      rfl
    · rw [hepoch]
      exact hmono.send_lt
    · rw [hepoch, hone]
      split <;> omega
  · dsimp only
    rw [keyed_append, keyed_singleton_none hkey, hone]
    exact hzero.symm

lemma drawn_key (h : Side u t d b own peer heard v) (hcount : keyed (v.s.epoch.toNat - 1) own + 1 < 2 ^ 32)
    (hpeer : v.s.tag = .headerReceived → ∀ x ∈ peer, x.epoch.toNat ≤ v.s.epoch.toNat)
    (hepoch : s'.epoch = v.s.epoch) (hmove : V1State.SendMove v.s s' es) {c1 c2 : Chain} {idx : UInt32}
    {mk : Bytes} (hadd : addSecret v.c es = .ok c1) (hdraw : c1.sendKey (v.s.epoch - 1) = .ok ((idx, mk), c2))
    (hmsg : res.msg = serializeMessage ⟨v.s.epoch, p⟩ idx) (hkey : res.key = nonEmptyKey mk)
    (hstore : c2.Storable → ∃ s'', V1State.Like s' s'' ∧ Opened (u.party d).negotiation res.state s'' c2) :
    ∃ s'', Drawn u d own peer heard v s' p es ⟨v.s.epoch, res.msg, res.key⟩ res.state s'' c2 idx := by
  have hpos : 1 ≤ v.s.epoch.toNat := by have := h.coupled.send_lt; omega
  obtain ⟨c1', dir, c2', hadd', hdraw', hdir, hnext, hpar⟩ := h.coupled.send hepoch hmove
    (fun _ seed _ => SendOk.new h.own_le seed)
    (fun hsome seed _ => RecvOk.new (hpeer (hmove.tag_of_secret hsome)) seed)
  rw [hadd] at hadd'
  cases hadd'
  rw [hdraw] at hdraw'
  cases hdraw'
  obtain ⟨hkeys, htracks, hctr⟩ := ChainEpochDirection.nextKey_tracks hdir.1
    (by rw [hdir.2]; exact hcount)
  have hidx : (dir.ctr + 1).toNat = keyed (v.s.epoch.toNat - 1) own + 1 := by
    rw [ChainEpochDirection.toNat_succ (by rw [hdir.2]; exact hcount), hdir.2]
  rw [nonEmptyKey, if_neg (by rw [ChainEpochDirection.length_derived_key]; decide)] at hkey
  have hcount' : keyed (v.s.epoch.toNat - 1) (own ++ [⟨v.s.epoch, res.msg, res.key⟩])
      = keyed (v.s.epoch.toNat - 1) own + 1 := by
    rw [keyed_append, keyed_singleton (by dsimp only; omega) (by rw [hkey]; rfl)]
  have hco := hnext (SendOk (own ++ [⟨v.s.epoch, res.msg, res.key⟩]))
    (fun n seed dd hn hd => ⟨hd.1, by
      rw [keyed_append, keyed_singleton_of_ne (by dsimp only; omega)]
      exact hd.2⟩)
    ⟨htracks, by rw [hctr, hidx, hcount']⟩
  obtain ⟨s'', hlike, hop⟩ := hstore (storable hco)
  refine ⟨s'', hlike, hop, hco.of_like hlike, hpar.trans h.params, hmsg, ?_, .inr ⟨?_, ?_⟩⟩
  · rw [hcount', hidx]
  · intro h0
    rw [h0] at hidx
    simp at hidx
  · dsimp only
    rw [hkey, hidx, ← hdir.2]
    exact congrArg some (congrArg Prod.snd hkeys)

lemma send (h : Side u t d b own peer heard v) (hrole : v.s.tag.isEk = ekTurn d v.s.epoch.toNat)
    (hcount : keyed (v.s.epoch.toNat - 1) own + 1 < 2 ^ 32)
    (hpeer : v.s.tag = .headerReceived → ∀ x ∈ peer, x.epoch.toNat ≤ v.s.epoch.toNat) {rng : Reader}
    (hsend : Spqr.send b rng = .ok res) : ∃ t' v' s' es p idx, Transcript.Samples v.s t t' ∧
      Side u t' d res.state (own ++ [⟨v.s.epoch, res.msg, res.key⟩]) peer heard v' ∧
      Logged u t' d v' (own ++ [⟨v.s.epoch, res.msg, res.key⟩]) own.length ⟨v.s.epoch, res.msg, res.key⟩ p idx ∧
      v.s.sendStep rng = .ok (s', p, es) ∧ V1State.Like s' v'.s := by
  obtain ⟨s', p, es, hstep, hcase⟩ := h.opened.send hsend
  obtain ⟨hepoch, hmove⟩ := V1State.sendStep_move hstep
  have hwf := V1State.sendStep_wf h.wf hstep
  have hturn : ∀ {t : Tag}, v.s.tag = t → ekTurn d v.s.epoch.toNat = t.isEk :=
    fun ht => by rw [← hrole, ht]
  obtain ⟨t', hsam, hf, hcar, hes⟩ := h.follows.send
    (fun ht => h.unseeded _ (hturn ht) (.inr ⟨rfl, ht⟩))
    (fun ht => h.untossed _ (hturn ht) (.inr ⟨rfl, by rw [ht]; decide⟩)) hstep
  have hsec : ∀ z, es = some z → t'.secret v.s.epoch.toNat = some z.secret ∧
      v.fs.length + 1 = v.s.epoch.toNat := by
    intro z hz
    refine ⟨hes z hz, ?_⟩
    have hlen := h.coupled.chain.length_eq
    have hcur := h.coupled.current
    rw [hmove.tag_of_secret (by rw [hz]; rfl)] at hcur
    simp only [Tag.ahead, Bool.false_eq_true, if_false] at hcur
    omega
  obtain ⟨s'', c', idx, hd⟩ : ∃ s'' c' idx,
      Drawn u d own peer heard v s' p es ⟨v.s.epoch, res.msg, res.key⟩ res.state s'' c' idx := by
    rcases hcase with ⟨rfl, hnew, hmin, hmsg, hkey, hstore⟩ | ⟨c1, idx, mk, c2, hadd, hdraw, hmsg, hkey, hstore⟩
    · obtain ⟨s'', hd⟩ := h.drawn_open hepoch hmove hnew hmin hmsg hkey (hstore hwf)
      exact ⟨s'', _, _, hd⟩
    · obtain ⟨s'', hd⟩ := h.drawn_key hcount hpeer hepoch hmove hadd hdraw hmsg hkey (hstore hwf)
      exact ⟨s'', _, _, hd⟩
  have hlog : Logged u t' d ⟨s'', c', v.fs ++ es.toList⟩ (own ++ [⟨v.s.epoch, res.msg, res.key⟩])
      own.length ⟨v.s.epoch, res.msg, res.key⟩ p idx := by
    have hlt := h.coupled.send_lt
    have hlen := hd.coupled.chain.length_eq
    have hcur := hd.coupled.current
    rw [hd.like.epoch, hepoch] at hcur
    refine ⟨hd.msg, (by dsimp only; omega), ?_, hcar, .inr ⟨hd.like.epoch.trans hepoch, ?_⟩, ?_, ?_, hd.key⟩
    · rintro rfl
      cases hcar
    · rw [hd.like.tag]
      exact V1State.emits_le_stage hstep
    · dsimp only
      split at hcur <;> omega
    · rw [List.take_of_length_le (by simp)]
      exact hd.index
  exact ⟨t', _, s', es, p, idx, hsam, of_sent h hrole hsam hepoch hmove hd.like hwf hf rfl hsec hd.opened
    hd.coupled hd.params ⟨p, idx, hlog⟩, hlog, hstep, hd.like⟩

/-! A receipt, with the invariants of both parties: `v` is the receiver, `w` the sender. -/

section Recv
variable {b' : SerializedState} {heard' : Nat} {w : View} {k : Nat} {x : Sent} {p : Payload}
  {idx : UInt32}

lemma recv_eq (h : Side u t d b own peer heard v) (hK : IncrementalKem.Correct)
    (hmin : u.minVersion d = v0 ∨ u.minVersion d = v1)
    (hw : Side u t (switchDirection d) b' peer own heard' w) (hal : Aligned d v.s w.s)
    (hsmall : v.s.epoch.toNat + 1 < 2 ^ 64) (hl : Logged u t (switchDirection d) w peer k x p idx) :
    ∃ s' es c1, v.s.recv ⟨x.epoch, p⟩ = .ok (s', es) ∧ t.Follows u.authKey s' ∧ s'.Wf ∧
      Coupled (SendOk own) (RecvOk peer heard) u.authKey d (v.fs ++ es.toList) s' c1 ∧
      c1.params = u.params ∧
      (∀ z, es = some z → t.secret v.s.epoch.toNat = some z.secret ∧
        v.fs.length + 1 = v.s.epoch.toNat) ∧
      Spqr.recv b x.msg = (do
        let k ← c1.recvKey (x.epoch - 1) idx
        return ⟨encodeState ⟨none, some k.2.toProto, some (v1StateToProto s')⟩, nonEmptyKey k.1⟩) := by
  have hne : x.epoch ≠ 0 := by
    intro h0
    have := hl.epoch_pos
    rw [h0] at this
    cases this
  obtain ⟨s', es, hrecv, hf, hes⟩ := h.follows.recv hK hl.carries hsmall
    (hal.epoch_of_past hsmall hl.past)
  have hmove := V1State.recv_move hrecv
  have hlen := h.coupled.chain.length_eq
  have hcur := h.coupled.current
  have hpeer : es.isSome → ∀ y ∈ peer, y.epoch.toNat ≤ v.s.epoch.toNat := by
    intro hsome y hy
    have hle := hw.own_le y hy
    rcases hal.nearPeer with hp | ⟨_, hct2⟩
    · omega
    · rw [hmove.tag_of_secret hsome] at hct2
      cases hct2
  obtain ⟨c1, hadd, hco, hpar⟩ := h.coupled.recv hsmall hmove
    (fun _ seed _ => SendOk.new h.own_le seed) (fun hsome seed _ => RecvOk.new (hpeer hsome) seed)
  refine ⟨s', es, c1, hrecv, hf, V1State.recv_wf h.wf hrecv, hco, hpar.trans h.params, ?_, ?_⟩
  · intro z hz
    refine ⟨hes z hz, ?_⟩
    rw [hmove.tag_of_secret (by rw [hz]; rfl)] at hcur
    simp only [Tag.ahead, Bool.false_eq_true, if_false] at hcur
    omega
  · rw [hl.msg, h.opened.recv_eq hmin hne hl.ack, hrecv, ok_bind, hadd, ok_bind]

omit [StateCodec] in
lemma draw_recv {fs : List EpochSecret} {s' : V1State} {c c' : Chain} {mk : Bytes}
    {S : Nat → Bytes → ChainEpochDirection → Prop} (hsorted : Sorted peer) (hx : peer[k]? = some x)
    (hl : Logged u t (switchDirection d) w peer k x p idx)
    (hagree : ∀ (i : Nat) (y z : EpochSecret), fs[i]? = some y → w.fs[i]? = some z → y.secret = z.secret)
    (hco : Coupled S (RecvOk peer heard) u.authKey d fs s' c)
    (hkey : c.recvKey (x.epoch - 1) idx = .ok (mk, c')) :
    nonEmptyKey mk = x.key ∧ Coupled S (RecvOk peer (max heard (k + 1))) u.authKey d fs s' c' ∧
      c'.params = c.params := by
  have hpred : (x.epoch - 1).toNat = x.epoch.toNat - 1 :=
    UInt64.toNat_sub_of_le _ _ (UInt64.le_iff_toNat_le.mpr hl.epoch_pos)
  have hpos := hl.epoch_pos
  rcases hl.key with ⟨hnone, rfl, hone, _⟩ | ⟨hne, hsome⟩
  · -- a message without a key draws none
    rw [hone, Chain.recvKey, if_pos ⟨rfl, rfl⟩] at hkey
    cases hkey
    refine ⟨hnone.symm, hco.mono (fun _ _ _ hd => hd) fun n seed dd hd => ?_, rfl⟩
    by_cases hn : n = x.epoch.toNat - 1
    · refine hd.caught_up hd.tracks ?_
      rw [hn, ← hl.index]
      exact (Nat.max_zero _).symm
    · exact hd.other hsorted hx hpos hn
  · obtain ⟨dd, dd', hdd, hk, hnext, hle, hpar⟩ := hco.recvKey (fun h => hne h.2) hkey
    rw [hpred] at hdd hle hnext
    obtain ⟨hmk, htracks, hctr⟩ := ChainEpochDirection.key_keeps
      (ChainEpochDirection.derives_tracks _) hdd.tracks hk
    have hseed : Chain.seedAt u.authKey fs (x.epoch.toNat - 1) (switchDirection d)
        = Chain.seedAt u.authKey w.fs (x.epoch.toNat - 1) (switchDirection d) :=
      Chain.seedAt_agree hagree (hle.trans (Nat.le_of_eq hco.chain.length_eq.symm))
        (by have := hl.epoch_le; omega) _
    refine ⟨?_, hnext _ (fun n seed dd hn hd => hd.other hsorted hx hpos hn)
      (hdd.caught_up htracks (by rw [← hl.index]; exact hctr)), hpar⟩
    rw [hmk, nonEmptyKey, if_neg (by rw [length_streamKey]; decide), hsome, hseed]

lemma unsampled_recv (h : Side u t d b own peer heard v)
    (hsmall : v.s.epoch.toNat + 1 < 2 ^ 64) {s' : V1State} {e : UInt64} {es : Option EpochSecret}
    (hmove : V1State.RecvMove v.s s' e es) : (∀ n, ekTurn d n = true →
      (s'.epoch.toNat < n ∨ (s'.epoch.toNat = n ∧ s'.tag = .keysUnsampled)) → t.seed n = none) ∧
    (∀ n, ekTurn d n = false →
      (s'.epoch.toNat < n ∨ (s'.epoch.toNat = n ∧ s'.tag.stage ≤ 1)) → t.coin n = none) := by
  have hsucc := toNat_epoch_succ hsmall
  cases hmove with
  | inEpoch htag hepoch =>
    rw [hepoch]
    refine ⟨fun n hn hc => h.unseeded n hn (hc.imp_right fun ⟨he, ht⟩ => ⟨he, ?_⟩),
      fun n hn hc => h.untossed n hn (hc.imp_right fun ⟨he, ht⟩ => ⟨he, htag.stage_le.trans ht⟩)⟩
    rw [ht] at htag
    generalize v.s.tag = a at htag
    cases htag
    rfl
  | nextEpoch _ _ hmsg _ hepoch =>
    rw [hepoch, hmsg, hsucc]
    exact ⟨fun n hn hc => h.unseeded n hn (.inl (by omega)),
      fun n hn hc => h.untossed n hn (.inl (by omega))⟩
  | finish _ _ _ hepoch =>
    rw [hepoch, hsucc]
    exact ⟨fun n hn hc => h.unseeded n hn (.inl (by omega)),
      fun n hn hc => h.untossed n hn (.inl (by omega))⟩

lemma recv_ok (h : Side u t d b own peer heard v) (hK : IncrementalKem.Correct)
    (hmin : u.minVersion d = v0 ∨ u.minVersion d = v1)
    (hw : Side u t (switchDirection d) b' peer own heard' w) (hal : Aligned d v.s w.s)
    (hsmall : v.s.epoch.toNat + 1 < 2 ^ 64) (hx : peer[k]? = some x)
    (hl : Logged u t (switchDirection d) w peer k x p idx) {res : RecvResult}
    (hrecv : Spqr.recv b x.msg = .ok res) :
    res.key = x.key ∧ ∃ s' es v', v.s.recv ⟨x.epoch, p⟩ = .ok (s', es) ∧ V1State.Like s' v'.s ∧
      Side u t d res.state own peer (max heard (k + 1)) v' := by
  obtain ⟨s', es, c1, hstep, hf, hwf, hco, hpar, hes, heq⟩ := h.recv_eq hK hmin hw hal hsmall hl
  have hmove := V1State.recv_move hstep
  have hsec := secrets_later (Transcript.Extends.refl t) h.secrets hes
  rw [heq] at hrecv
  obtain ⟨⟨mk, c2⟩, hkey, hr⟩ := bind_eq_ok hrecv
  cases hr
  obtain ⟨hmk, hco2, hpar2⟩ := draw_recv hw.sorted hx hl
    (fun i y z hy hz => Option.some.inj ((hsec i y hy).symm.trans (hw.secrets i z hz))) hco hkey
  obtain ⟨s'', hlike, hop⟩ := Opened.store none
    (.inl rfl : none = none ∨ none = some (u.party d).negotiation) hwf (storable hco2)
  obtain ⟨hunseeded, huntossed⟩ := h.unsampled_recv hsmall hmove
  refine ⟨hmk, s', es, ⟨s'', c2, v.fs ++ es.toList⟩, hstep, hlike, ?_⟩
  refine ⟨hop, hlike.wf hwf, hf.of_like hlike, hco2.of_like hlike, hpar2.trans hpar, hsec, ?_, ?_, ?_, h.sorted⟩
  · rw [hlike.epoch, hlike.tag]
    exact hunseeded
  · rw [hlike.epoch, hlike.tag]
    exact huntossed
  · intro j y hy
    obtain ⟨q, i, hly⟩ := h.log j y hy
    exact ⟨q, i, logged_later _ (Transcript.Extends.refl t) hly
      (fun e k hp => (hp.recv hsmall hmove).of_like hlike) rfl⟩

end Recv

end Side

end

end LibSignal.Spqr
