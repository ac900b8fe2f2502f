import LibSignal.Spqr.Window

/-!
# Send keys of a chain

`ChainRun` is a run of `addEpoch`, `sendKey` and `recvKey` calls on a new chain, with the send keys returned
so far.
-/

namespace LibSignal.Spqr
open Chunked Crypto Lib

structure SentKey where
  epoch : UInt64
  index : UInt32
  key : Bytes
deriving DecidableEq, Repr

inductive ChainCall
  | addEpoch (es : EpochSecret)
  | sendKey (epoch : UInt64)
  | recvKey (epoch : UInt64) (index : UInt32)

namespace Chain

/-! ## Receive answers -/

section
variable {c c' : Chain} {ep : UInt64}

def Retained (c : Chain) (ep : UInt64) : Prop := ∃ i, c.epochIdx ep = .ok i

structure SameRecv (c c' : Chain) : Prop where
  params : c'.params = c.params
  recv : ∀ ep i i', c.epochIdx ep = .ok i → c'.epochIdx ep = .ok i' →
    (c'.links[i']?).map ChainEpoch.recv = (c.links[i]?).map ChainEpoch.recv

variable {i : Nat} {l : ChainEpoch}

lemma epochIdx_injective {ep' : UInt64} (h : c.epochIdx ep = .ok i) (h' : c.epochIdx ep' = .ok i) : ep = ep' := by
  obtain ⟨hle, -, hi⟩ := epochIdx_back h
  obtain ⟨hle', -, hi'⟩ := epochIdx_back h'
  apply UInt64.toNat_inj.mp
  omega

lemma epochIdx_set (c : Chain) (i : Nat) (l : ChainEpoch) (ep : UInt64) :
    Chain.epochIdx { c with links := c.links.set i l } ep = c.epochIdx ep := by
  simp only [epochIdx, List.length_set]

lemma exists_link (h : c.Retained ep) : ∃ i l, c.epochIdx ep = .ok i ∧ c.links[i]? = some l := by
  obtain ⟨i, hi⟩ := h
  obtain ⟨-, -, hlen⟩ := epochIdx_back hi
  have hlt : i < c.links.length := by omega
  exact ⟨i, c.links[i], hi, List.getElem?_eq_getElem hlt⟩

lemma addEpoch_sameRecv [Hash] {es : EpochSecret} (h : c.addEpoch es = .ok c') : c.SameRecv c' := by
  rw [addEpoch] at h
  split at h
  · cases h
  · rename_i hes
    cases h
    have hcur : es.epoch = c.currentEpoch + 1 := not_not.mp hes
    refine ⟨rfl, fun ep i i' hi hi' => ?_⟩
    obtain ⟨hle, hback, hlen⟩ := epochIdx_back hi
    obtain ⟨hle', hback', hlen'⟩ := epochIdx_back hi'
    simp only [List.length_append, List.length_singleton] at hlen' hle' hback'
    have hnat : es.epoch.toNat = (c.currentEpoch.toNat + 1) % 2 ^ 64 := by
      rw [hcur, UInt64.toNat_add]
      rfl
    have hbound := c.currentEpoch.toNat_lt
    -- the epoch number has not wrapped, or no epoch would be retained on both sides
    obtain rfl : i' = i := by omega
    rw [List.getElem?_append_left (by omega)]

lemma popFront_drop (n : Nat) (links : List ChainEpoch) :
    ∃ k ≤ n, popFront n links = (links.drop k, n - k) := by
  cases n with
  | zero => exact ⟨0, le_rfl, rfl⟩
  | succ n => exact ⟨n, Nat.le_succ n, by rw [popFront_eq, Nat.add_sub_cancel_left]⟩

lemma clearBefore_recv (n : Nat) (links : List ChainEpoch) :
    (clearBefore n links).map ChainEpoch.recv = links.map ChainEpoch.recv := by
  have hmap : ((links.take n).map fun l => { l with send := l.send.clearNext }).map ChainEpoch.recv
      = (links.take n).map ChainEpoch.recv := by
    rw [List.map_map]
    rfl
  rw [clearBefore, List.map_append, hmap, ← List.map_append, List.take_append_drop]

lemma moveSendEpoch_recv (c : Chain) (ep : UInt64) (i : Nat) :
    ∃ k, (c.moveSendEpoch ep i).1.links.map ChainEpoch.recv = (c.links.drop k).map ChainEpoch.recv ∧
      (c.moveSendEpoch ep i).1.currentEpoch = c.currentEpoch ∧ (c.moveSendEpoch ep i).1.params = c.params := by
  rw [moveSendEpoch]
  split
  · obtain ⟨k, -, hpop⟩ := popFront_drop i c.links
    rw [hpop]
    exact ⟨k, clearBefore_recv _ _, rfl, rfl⟩
  · exact ⟨0, rfl, rfl, rfl⟩

lemma moveSendEpoch_link (c : Chain) (ep : UInt64) (i : Nat) :
    (c.moveSendEpoch ep i).1.links[(c.moveSendEpoch ep i).2]? = c.links[i]? := by
  rw [moveSendEpoch]
  split
  · obtain ⟨k, hk, hpop⟩ := popFront_drop i c.links
    rw [hpop]
    simp only [clearBefore]
    by_cases hlt : i - k ≤ (c.links.drop k).length
    · rw [List.getElem?_append_right (by simp), List.length_map, List.length_take, Nat.min_eq_left hlt,
        Nat.sub_self, List.getElem?_drop, List.getElem?_drop, show k + (i - k + 0) = i by omega]
    · rw [List.length_drop] at hlt
      rw [List.getElem?_eq_none (by simp; omega), List.getElem?_eq_none (by omega)]
  · rfl

lemma set_recv {links : List ChainEpoch} (hl : links[i]? = some l) {l' : ChainEpoch} (hrecv : l'.recv = l.recv) :
    (links.set i l').map ChainEpoch.recv = links.map ChainEpoch.recv := by
  rw [List.map_set, hrecv]
  refine List.ext_getElem? fun j => ?_
  rw [List.getElem?_set]
  split
  · rename_i hij
    subst hij
    obtain ⟨hlt, rfl⟩ := List.getElem?_eq_some_iff.mp hl
    simp [hlt]
  · rfl

lemma sendKey_sameRecv [Hash] {ik : UInt32 × Bytes} (h : c.sendKey ep = .ok (ik, c')) : c.SameRecv c' := by
  rw [sendKey] at h
  split at h
  · cases h
  · obtain ⟨i0, -, h⟩ := bind_eq_ok h
    obtain ⟨k, hrecv, hcur, hpar⟩ := moveSendEpoch_recv c ep i0
    generalize c.moveSendEpoch ep i0 = m at h hrecv hcur hpar
    obtain ⟨c1, i1⟩ := m
    dsimp only at h hrecv hcur hpar
    cases hl : c1.links[i1]? with
    | none =>
      rw [hl] at h
      cases h
    | some l =>
      rw [hl] at h
      cases h
      have hlen := congrArg List.length hrecv
      simp only [List.length_map, List.length_drop] at hlen
      refine ⟨hpar, fun ep i i' hi hi' => ?_⟩
      obtain ⟨-, -, hi⟩ := epochIdx_back hi
      obtain ⟨-, -, hi'⟩ := epochIdx_back hi'
      simp only [List.length_set, hcur] at hi'
      have hset : (c1.links.set i1 ⟨l.send.nextKey.2, l.recv⟩).map ChainEpoch.recv
          = (c.links.drop k).map ChainEpoch.recv := by
        rw [set_recv hl, hrecv]
        rfl
      rw [← List.getElem?_map, ← List.getElem?_map]
      dsimp only
      rw [hset, List.map_drop, List.getElem?_drop, show k + i' = i by omega]

lemma recvKey_link [Hash] {idx : UInt32} (hne : ¬ (ep = 0 ∧ idx = 0)) (hi : c.epochIdx ep = .ok i)
    (hl : c.links[i]? = some l) : c.recvKey ep idx = (l.recv.key idx c.params).map fun r =>
      (r.1, { c with links := c.links.set i { l with recv := r.2 } }) := by
  rw [recvKey, if_neg hne, hi]
  simp only [ok_bind, hl]
  cases l.recv.key idx c.params <;> rfl

def recvAnswers [Hash] : Chain → List (UInt64 × UInt32) → List (Except Err Bytes)
  | _, [] => []
  | c, (ep, idx) :: reqs =>
    match c.recvKey ep idx with
    | .ok (k, c') => .ok k :: recvAnswers c' reqs
    | .error e => .error e :: recvAnswers c reqs

lemma SameRecv.set (h : c.SameRecv c') {i i' : Nat} (hi : c.epochIdx ep = .ok i)
    (hi' : c'.epochIdx ep = .ok i') {l l' : ChainEpoch} (hlt : i < c.links.length)
    (hlt' : i' < c'.links.length) (hll : l'.recv = l.recv) :
    SameRecv { c with links := c.links.set i l } { c' with links := c'.links.set i' l' } := by
  refine ⟨h.params, fun ep1 j j' hj hj' => ?_⟩
  rw [epochIdx_set] at hj hj'
  have hsame := h.recv ep1 j j' hj hj'
  dsimp only
  by_cases hep : ep1 = ep
  · subst hep
    cases hi.symm.trans hj
    cases hi'.symm.trans hj'
    rw [List.getElem?_set_self hlt, List.getElem?_set_self hlt']
    exact congrArg some hll
  · have hne : i ≠ j := fun hij => hep (epochIdx_injective hj (hij ▸ hi))
    have hne' : i' ≠ j' := fun hij => hep (epochIdx_injective hj' (hij ▸ hi'))
    rw [List.getElem?_set_ne hne, List.getElem?_set_ne hne']
    exact hsame

lemma SameRecv.answers [Hash] (h : c.SameRecv c') (reqs : List (UInt64 × UInt32))
    (hret : ∀ q ∈ reqs, c.Retained q.1 ∧ c'.Retained q.1) : c'.recvAnswers reqs = c.recvAnswers reqs := by
  induction reqs generalizing c c' with
  | nil => rfl
  | cons q reqs ih =>
    obtain ⟨ep, idx⟩ := q
    obtain ⟨⟨hc, hc'⟩, hrest⟩ := List.forall_mem_cons.mp hret
    rw [recvAnswers, recvAnswers]
    by_cases hzero : ep = 0 ∧ idx = 0
    · rw [recvKey, recvKey, if_pos hzero, if_pos hzero]
      exact congrArg _ (ih h hrest)
    · obtain ⟨i, l, hi, hl⟩ := exists_link hc
      obtain ⟨i', l', hi', hl'⟩ := exists_link hc'
      have hll : l'.recv = l.recv := by
        have hsame := h.recv ep i i' hi hi'
        rw [hl, hl'] at hsame
        exact Option.some.inj hsame
      have hkey : l'.recv.key idx c'.params = l.recv.key idx c.params := by rw [hll, h.params]
      rw [recvKey_link hzero hi hl, recvKey_link hzero hi' hl', hkey]
      cases l.recv.key idx c.params with
      | error e => exact congrArg _ (ih h hrest)
      | ok r =>
        have hset := @SameRecv.set c c' ep h i i' hi hi' { l with recv := r.2 } { l' with recv := r.2 }
          (List.getElem?_eq_some_iff.mp hl).1 (List.getElem?_eq_some_iff.mp hl').1 rfl
        refine congrArg (Except.ok r.1 :: ·) (ih hset fun q hq => ?_)
        obtain ⟨⟨j, hj⟩, ⟨j', hj'⟩⟩ := hrest q hq
        exact ⟨⟨j, (epochIdx_set _ _ _ _).trans hj⟩, ⟨j', (epochIdx_set _ _ _ _).trans hj'⟩⟩

end

/-! ## The send side -/

variable [Hash]

def call (c : Chain) : ChainCall → Except Err (Option SentKey × Chain)
  | .addEpoch es => (c.addEpoch es).map fun c' => (none, c')
  | .sendKey ep => (c.sendKey ep).map fun r => (some ⟨ep, r.1.1, r.1.2⟩, r.2)
  | .recvKey ep idx => (c.recvKey ep idx).map fun r => (none, r.2)

def sends (log : List SentKey) (ep : UInt64) : Nat := log.countP (·.epoch = ep)

/-- The send direction of epoch `n` holds a chain key and has returned as many keys as the log says. -/
def Counted (log : List SentKey) (n : Nat) (d : ChainEpochDirection) : Prop :=
  d.next.length = 32 ∧ d.ctr.toNat = log.countP (·.epoch.toNat = n)

/-- The epoch number has wrapped and lies below the send epoch. -/
def Past (c : Chain) : Prop :=
  c.sendEpoch.toNat - 1 + c.links.length = c.currentEpoch.toNat + 2 ^ 64 + 1

/-- A log of sends up to an epoch: the epochs never decrease and the indices of one epoch count up. -/
structure Logged (log : List SentKey) (top : UInt64) : Prop where
  le : ∀ s ∈ log, s.epoch ≤ top
  sorted : (log.map SentKey.epoch).Pairwise (· ≤ ·)
  indices : ∀ ep, (log.filter (·.epoch = ep)).map (·.index.toNat) = List.range' 1 (sends log ep)

variable {c c' : Chain} {ep : UInt64} {log : List SentKey}

omit [Hash] in
lemma Logged.append {top : UInt64} (h : Logged log top) {s : SentKey} (hge : top ≤ s.epoch)
    (hidx : s.index.toNat = sends log s.epoch + 1) : Logged (log ++ [s]) s.epoch := by
  refine ⟨?_, ?_, fun ep => ?_⟩
  · intro s' hs
    rcases List.mem_append.mp hs with hs | hs
    · exact UInt64.le_trans (h.le s' hs) hge
    · rw [List.mem_singleton.mp hs]
      exact UInt64.le_refl _
  · rw [List.map_append, List.pairwise_append]
    refine ⟨h.sorted, by simp, fun a ha b hb => ?_⟩
    obtain ⟨s', hs, rfl⟩ := List.mem_map.mp ha
    rw [List.map_singleton, List.mem_singleton] at hb
    rw [hb]
    exact UInt64.le_trans (h.le s' hs) hge
  · rw [List.filter_append, List.map_append, h.indices ep]
    by_cases he : s.epoch = ep
    · subst he
      have hcount : sends (log ++ [s]) s.epoch = sends log s.epoch + 1 := by simp [sends]
      have hone : [s].filter (·.epoch = s.epoch) = [s] := by simp
      rw [hone, hcount, List.range'_1_concat, List.map_singleton, hidx, Nat.add_comm 1]
    · have hcount : sends (log ++ [s]) ep = sends log ep := by simp [sends, he]
      have hnone : [s].filter (·.epoch = ep) = [] := by simp [he]
      rw [hnone, hcount, List.map_nil, List.append_nil]

omit [Hash] in
lemma Logged.nodup {top : UInt64} (h : Logged log top) : (log.map fun s => (s.epoch, s.index)).Nodup := by
  rw [List.Nodup, List.pairwise_map, List.pairwise_iff_getElem]
  intro i j hi hj hij heq
  have hepoch := (Prod.mk.inj heq).1
  have hindex := (Prod.mk.inj heq).2
  have hnodup : ((log.filter (·.epoch = log[i].epoch)).map (·.index.toNat)).Nodup := by
    rw [h.indices]
    exact List.nodup_range'
  rw [List.Nodup, List.pairwise_map, List.pairwise_filter, List.pairwise_iff_getElem] at hnodup
  refine hnodup i j hi hj hij (by simp) ?_ (congrArg UInt32.toNat hindex)
  simpa using hepoch.symm

structure Sends (log : List SentKey) (c : Chain) : Prop where
  small : c.links.length < 2 ^ 63
  window : c.Window (Counted log) (fun _ _ => True) ∨ c.Past
  logged : Logged log c.sendEpoch

omit [Hash] in
lemma countP_toNat (log : List SentKey) (ep : UInt64) :
    log.countP (·.epoch.toNat = ep.toNat) = sends log ep := by
  refine List.countP_congr fun s _ => ?_
  simp only [decide_eq_true_eq]
  exact UInt64.toNat_inj

lemma new_sends (key : Bytes) (dir : Direction) (params : ChainParams) : (new key dir params).Sends [] := by
  have hlen : (chainHKDF zeroSalt32 key chainStartInfo 96).length = 96 := length_chainHKDF _ _ _ _ (by decide)
  refine ⟨by simp [new], .inl ⟨le_rfl, rfl, fun i l hl => ?_⟩,
    by simp, by simp, by simp [sends]⟩
  cases i with
  | zero =>
    cases hl
    refine ⟨trivial, fun _ => ⟨length_seedFor hlen dir, rfl⟩, fun h => absurd h (Nat.not_lt_zero _)⟩
  | succ i => cases hl

/-- Adding an epoch keeps the log, also when the epoch number wraps. -/
lemma Sends.addEpoch {es : EpochSecret} (h : c.Sends log) (hadd : c.addEpoch es = .ok c')
    (hsmall : c'.links.length < 2 ^ 63) : c'.Sends log := by
  have hadd' := hadd
  rw [Chain.addEpoch] at hadd'
  split at hadd'
  · cases hadd'
  · rename_i hes
    have hcur : es.epoch = c.currentEpoch + 1 := not_not.mp hes
    have hnat : es.epoch.toNat = (c.currentEpoch.toNat + 1) % 2 ^ 64 := by
      rw [hcur, UInt64.toNat_add]
      rfl
    have hbound := c.currentEpoch.toNat_lt
    have hsend := c.sendEpoch.toNat_lt
    cases hadd'
    simp only [List.length_append, List.length_singleton] at hsmall
    refine ⟨by simpa using hsmall, ?_, h.logged⟩
    rcases h.window with hw | hpast
    · by_cases hwrap : c.currentEpoch.toNat + 1 < 2 ^ 64
      · left
        have hep : es.epoch.toNat = c.currentEpoch.toNat + 1 := by omega
        have hlen : (chainHKDF c.nextRoot es.secret chainAddEpochInfo 96).length = 96 :=
          length_chainHKDF _ _ _ _ (by decide)
        have hnone : log.countP (·.epoch.toNat = es.epoch.toNat) = 0 := by
          refine List.countP_eq_zero.mpr fun s hs => ?_
          have hle := UInt64.le_iff_toNat_le.mp (h.logged.le s hs)
          have hsendle := hw.send_le
          simp only [decide_eq_true_eq]
          omega
        obtain ⟨c', hok, hw', -⟩ := hw.addEpoch hep ⟨length_seedFor hlen c.dir, hnone.symm⟩ trivial
        cases hadd.symm.trans hok
        exact hw'
      · right
        have hcount := hw.count
        simp only [Past, List.length_append, List.length_singleton]
        omega
    · right
      have hcount : c.sendEpoch.toNat - 1 + c.links.length = c.currentEpoch.toNat + 2 ^ 64 + 1 := hpast
      simp only [Past, List.length_append, List.length_singleton]
      omega

lemma Sends.recvKey {idx : UInt32} {k : Bytes} (h : c.Sends log) (hrecv : c.recvKey ep idx = .ok (k, c')) :
    c'.Sends log := by
  by_cases hzero : ep = 0 ∧ idx = 0
  · rw [Chain.recvKey, if_pos hzero] at hrecv
    cases hrecv
    exact h
  have hrecv' := hrecv
  rw [Chain.recvKey, if_neg hzero] at hrecv'
  obtain ⟨i, hi, hrest⟩ := bind_eq_ok hrecv'
  cases hl : c.links[i]? with
  | none =>
    rw [hl] at hrest
    cases hrest
  | some l =>
    rw [hl] at hrest
    obtain ⟨⟨k', d'⟩, -, hret⟩ := bind_eq_ok hrest
    cases hret
    refine ⟨by simpa using h.small, h.window.imp (fun hw => ?_) (fun hpast => ?_), h.logged⟩
    · obtain ⟨d, d'', -, -, hset, -⟩ := hw.recvKey_inv hzero hrecv
      exact hset _ (fun _ _ _ _ h => h) trivial
    · simpa [Past] using hpast

omit [Hash] in
lemma Sends.send_range (h : c.Sends log) {i : Nat} (hge : ¬ ep < c.sendEpoch) (hi : c.epochIdx ep = .ok i) :
    c.Window (Counted log) (fun _ _ => True) ∧ c.sendEpoch.toNat ≤ ep.toNat ∧
      ep.toNat ≤ c.currentEpoch.toNat := by
  obtain ⟨hle, -, -⟩ := epochIdx_back hi
  have hge' : c.sendEpoch.toNat ≤ ep.toNat := UInt64.le_iff_toNat_le.mp (UInt64.not_lt.mp hge)
  refine ⟨h.window.resolve_right fun hpast => ?_, hge', hle⟩
  have hsmall := h.small
  rw [Past] at hpast
  omega

lemma sendKey_inv {ik : UInt32 × Bytes} (h : c.sendKey ep = .ok (ik, c')) :
    ¬ ep < c.sendEpoch ∧ ∃ i l, c.epochIdx ep = .ok i ∧ c.links[i]? = some l ∧ ik = l.send.nextKey.1 := by
  rw [Chain.sendKey] at h
  split at h
  · cases h
  · rename_i hge
    obtain ⟨i, hi, h⟩ := bind_eq_ok h
    have hlink := moveSendEpoch_link c ep i
    generalize c.moveSendEpoch ep i = m at h hlink
    cases hl : m.1.links[m.2]? with
    | none =>
      simp only [hl] at h
      cases h
    | some l =>
      simp only [hl] at h
      cases h
      exact ⟨hge, i, l, hi, hlink.symm.trans hl, rfl⟩

lemma Sends.sendKey {ik : UInt32 × Bytes} (h : c.Sends log) (hsend : c.sendKey ep = .ok (ik, c')) :
    (∃ i l, c.epochIdx ep = .ok i ∧ c.links[i]? = some l ∧ l.send.next.length = 32 ∧
      l.send.ctr.toNat = sends log ep ∧ ik = l.send.nextKey.1) ∧
    (∃ i, c'.epochIdx ep = .ok i ∧ i ≤ epochsToKeepPriorToSendEpoch ∧
      ∀ j l, j < i → c'.links[j]? = some l → l.send.next = []) ∧
    (sends log ep + 1 < 2 ^ 32 → c'.Sends (log ++ [⟨ep, ik.1, ik.2⟩])) := by
  obtain ⟨hnot, i, l, hi, hl, hik⟩ := sendKey_inv hsend
  obtain ⟨hw, hge, hle⟩ := h.send_range hnot hi
  obtain ⟨-, hep, -⟩ := epochIdx_inv hw.length_le hi
  have hlink := (hw.link i l hl).send (by omega)
  rw [← hep, Counted, countP_toNat] at hlink
  obtain ⟨d, c1, hok, hd, hset, hsendEp, hcur, -⟩ := hw.sendKey hge hle h.small
  cases hsend.symm.trans hok
  rw [Counted, countP_toNat] at hd
  have hwin : ∀ S', (∀ n d, n ≠ ep.toNat → n ≤ c.currentEpoch.toNat → Counted log n d → S' n d) →
      S' ep.toNat d.nextKey.2 → c'.Window S' (fun _ _ => True) ∧ c'.links.length < 2 ^ 63 := by
    intro S' hother hS'
    have hw' := hset S' hother hS'
    have hcount := hw.count
    have hcount' := hw'.count
    have hsmall := h.small
    rw [hsendEp, hcur] at hcount'
    exact ⟨hw', by omega⟩
  refine ⟨⟨i, l, hi, hl, hlink.1, hlink.2, hik⟩, ?_, fun hfew => ?_⟩
  · obtain ⟨hw', hsmall'⟩ := hwin (fun _ _ => True) (fun _ _ _ _ _ => trivial) trivial
    have hlo := hw'.lo_eq
    rw [hsendEp] at hlo
    refine ⟨_, epochIdx_ok hw'.length_le (by omega) (by rw [hcur]; exact hle) hsmall', ?_, ?_⟩
    · rw [epochsToKeepPriorToSendEpoch]
      omega
    · intro j l hj hl
      refine (hw'.link j l hl).cleared ?_
      rw [hsendEp]
      omega
  · have hctr : d.nextKey.1.1.toNat = sends log ep + 1 := by
      change (d.ctr + 1).toNat = _
      rw [ChainEpochDirection.toNat_succ (by rw [hd.2]; exact hfew), hd.2]
    let s : SentKey := ⟨ep, d.nextKey.1.1, d.nextKey.1.2⟩
    have hlog : ∀ n, (log ++ [s]).countP (·.epoch.toNat = n)
        = log.countP (·.epoch.toNat = n) + if ep.toNat = n then 1 else 0 := by
      intro n
      rw [List.countP_append, List.countP_singleton]
      simp only [decide_eq_true_eq, s]
    have hnext : Counted (log ++ [s]) ep.toNat d.nextKey.2 := by
      refine ⟨ChainEpochDirection.length_derived_next _ _, ?_⟩
      rw [hlog, if_pos rfl, countP_toNat]
      exact hctr
    obtain ⟨hw', hsmall'⟩ := hwin (Counted (log ++ [s]))
      (fun n d' hn _ hold => ⟨hold.1, by rw [hlog, if_neg hn.symm]; exact hold.2⟩) hnext
    refine ⟨hsmall', .inl hw', ?_⟩
    rw [hsendEp]
    exact h.logged.append (s := s) (UInt64.le_iff_toNat_le.mpr hge) hctr

end Chain

section
variable [Hash]

/-- A run of calls on a new chain with the keys sent so far. A call that is rejected leaves the chain as it
is; a slice holds fewer than `2^63` links. -/
inductive ChainRun (key : Bytes) (dir : Direction) (params : ChainParams) :
    List SentKey → Chain → Prop
  | new : ChainRun key dir params [] (.new key dir params)
  | ok {log c x r c'} (h : ChainRun key dir params log c) (hcall : c.call x = .ok (r, c'))
      (hsmall : c'.links.length < 2 ^ 63) : ChainRun key dir params (log ++ r.toList) c'
  | rejected {log c x e} (h : ChainRun key dir params log c) (hcall : c.call x = .error e) :
      ChainRun key dir params log c

lemma ChainRun.sends {key : Bytes} {dir : Direction} {params : ChainParams} {log : List SentKey}
    {c : Chain} (h : ChainRun key dir params log c) (hfew : ∀ ep, Chain.sends log ep < 2 ^ 32) :
    c.Sends log := by
  induction h with
  | new => exact Chain.new_sends key dir params
  | rejected _ _ ih => exact ih hfew
  | @ok log c x r c' _ hcall hsmall ih =>
    have hold : ∀ ep, Chain.sends log ep + Chain.sends r.toList ep < 2 ^ 32 := by
      intro ep
      have hep := hfew ep
      rwa [Chain.sends, List.countP_append] at hep
    have hc := ih fun ep => lt_of_le_of_lt (Nat.le_add_right _ _) (hold ep)
    cases x with
    | addEpoch es =>
      obtain ⟨c1, hadd, heq⟩ := map_eq_ok hcall
      cases heq
      rw [Option.toList_none, List.append_nil]
      exact hc.addEpoch hadd hsmall
    | recvKey ep idx =>
      obtain ⟨⟨k, c1⟩, hrecv, heq⟩ := map_eq_ok hcall
      cases heq
      rw [Option.toList_none, List.append_nil]
      exact hc.recvKey hrecv
    | sendKey ep =>
      obtain ⟨⟨ik, c1⟩, hsend, heq⟩ := map_eq_ok hcall
      cases heq
      have hone := hold ep
      simp only [Chain.sends, Option.toList_some, List.countP_singleton, decide_true, if_true] at hone
      exact (hc.sendKey hsend).2.2 hone

/-- Send keys are fresh: in every run with fewer than `2^32` sends in each epoch, the pairs of epoch and index
are distinct, the epochs never decrease and the indices of each epoch count up from 1. -/
theorem send_keys_fresh {key : Bytes} {dir : Direction} {params : ChainParams} {log : List SentKey}
    {c : Chain} (h : ChainRun key dir params log c) (hfew : ∀ ep, Chain.sends log ep < 2 ^ 32) :
    (log.map fun s => (s.epoch, s.index)).Nodup ∧ (log.map SentKey.epoch).Pairwise (· ≤ ·) ∧
    (∀ ep, (log.filter (·.epoch = ep)).map (·.index.toNat) = List.range' 1 (Chain.sends log ep)) ∧
    (∀ ep ik c', c.sendKey ep = .ok (ik, c') →
      (∃ i l, c.epochIdx ep = .ok i ∧ c.links[i]? = some l ∧ l.send.next.length = 32 ∧ ik = (l.send.ctr + 1,
          slice (ChainEpochDirection.derive l.send.next (l.send.ctr + 1)) 32 64)) ∧
      (∃ i, c'.epochIdx ep = .ok i ∧ i ≤ 1 ∧ ∀ j l, j < i → c'.links[j]? = some l → l.send.next = [])) ∧
    (∀ c', ((∃ ep ik, c.sendKey ep = .ok (ik, c')) ∨ ∃ es, c.addEpoch es = .ok c') →
      ∀ reqs : List (UInt64 × UInt32), (∀ q ∈ reqs, c.Retained q.1 ∧ c'.Retained q.1) →
        c'.recvAnswers reqs = c.recvAnswers reqs) := by
  have hc := h.sends hfew
  refine ⟨hc.logged.nodup, hc.logged.sorted, hc.logged.indices, fun ep ik c' hsend => ?_, ?_⟩
  · obtain ⟨⟨i, l, hi, hl, hnext, -, hik⟩, hold, -⟩ := hc.sendKey hsend
    exact ⟨⟨i, l, hi, hl, hnext, hik⟩, hold⟩
  · rintro c' (⟨ep, ik, hsend⟩ | ⟨es, hadd⟩) reqs hret
    · exact (Chain.sendKey_sameRecv hsend).answers reqs hret
    · exact (Chain.addEpoch_sameRecv hadd).answers reqs hret

end

/-- The first send of a new chain. -/
theorem send_keys_fresh_first :
    let _ := zeroHash
    ∃ ik c, (Chain.new [] .a2b ⟨0, 0⟩).sendKey 0 = .ok (ik, c) ∧
      ([(⟨0, ik.1, ik.2⟩ : SentKey)].map fun s => (s.epoch, s.index)).Nodup := by
  let _ := zeroHash
  have hnew := Chain.new_sends [] .a2b ⟨0, 0⟩
  have hidx := @Chain.epochIdx_ok (Chain.new [] .a2b ⟨0, 0⟩) (Nat.le_refl 1) 0 (Nat.le_refl 0)
    (Nat.le_refl 0) hnew.small
  obtain ⟨hw, hge, hle⟩ := hnew.send_range (UInt64.lt_irrefl 0) hidx
  obtain ⟨d, c, hsend, -, -, hep, hcur, -⟩ := hw.sendKey hge hle hnew.small
  have hcall : (Chain.new [] .a2b ⟨0, 0⟩).call (.sendKey 0)
      = .ok (some ⟨0, d.nextKey.1.1, d.nextKey.1.2⟩, c) := by
    rw [Chain.call, hsend]
    rfl
  have hsmall : c.links.length < 2 ^ 63 := by
    obtain ⟨-, ⟨i, hi, hone, -⟩, -⟩ := hnew.sendKey hsend
    obtain ⟨-, -, hlen⟩ := Chain.epochIdx_back hi
    rw [hcur] at hlen
    change i + 0 + 1 = _ at hlen
    have hkeep : i ≤ 1 := hone
    omega
  have hrun : ChainRun [] .a2b ⟨0, 0⟩ ([] ++ [⟨0, d.nextKey.1.1, d.nextKey.1.2⟩]) c :=
    ChainRun.new.ok hcall hsmall
  refine ⟨d.nextKey.1, c, hsend, (send_keys_fresh hrun fun ep => ?_).1⟩
  rw [Chain.sends]
  exact lt_of_le_of_lt List.countP_le_length (show 1 < 2 ^ 32 by decide)

end LibSignal.Spqr
