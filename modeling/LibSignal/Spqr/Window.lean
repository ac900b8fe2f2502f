import LibSignal.Lib.ExceptBind
import LibSignal.Spqr.KeyStream

/-!
# The epoch window of a chain

`Chain.Window S R` is the shape of every invariant of a chain: the retained links are the contiguous epochs
`lo .. currentEpoch`, they include the send epoch and at most one epoch before it, the receive direction of
epoch `n` satisfies `R n`, and the send direction satisfies `S n` from the send epoch on and is cleared before
it.
-/

namespace LibSignal.Spqr
open Chunked Crypto Lib

namespace Chain

def lo (c : Chain) : Nat := c.currentEpoch.toNat + 1 - c.links.length

structure LinkOk (S R : Nat → ChainEpochDirection → Prop) (sendEpoch n : Nat) (l : ChainEpoch) :
    Prop where
  recv : R n l.recv
  send : sendEpoch ≤ n → S n l.send
  cleared : n < sendEpoch → l.send.next = []

structure Window (S R : Nat → ChainEpochDirection → Prop) (c : Chain) : Prop where
  send_le : c.sendEpoch.toNat ≤ c.currentEpoch.toNat
  count : c.sendEpoch.toNat - 1 + c.links.length = c.currentEpoch.toNat + 1
  link : ∀ i l, c.links[i]? = some l → LinkOk S R c.sendEpoch.toNat (c.lo + i) l

variable {S R S' R' : Nat → ChainEpochDirection → Prop} {c : Chain}

lemma toInt_of_small {v : UInt64} (h : v.toNat < 2 ^ 63) : v.toInt64.toInt = v.toNat := by
  change v.toBitVec.toInt = v.toBitVec.toNat
  exact BitVec.toInt_eq_toNat_of_lt (by change 2 * v.toNat < 2 ^ 64; omega)

lemma toInt_of_large {v : UInt64} (h : 2 ^ 63 ≤ v.toNat) : v.toInt64.toInt < 0 := by
  have hlt := v.toNat_lt
  change v.toBitVec.toInt < 0
  rw [BitVec.toInt_eq_toNat_cond, if_neg]
  · change (v.toNat : Int) - _ < 0
    push_cast
    omega
  · change ¬ 2 * v.toNat < 2 ^ 64
    omega

variable {ep : UInt64} {i : Nat} {idx : UInt32}

lemma toNat_back (hle : ep.toNat ≤ c.currentEpoch.toNat) :
    (c.currentEpoch - ep).toNat = c.currentEpoch.toNat - ep.toNat :=
  UInt64.toNat_sub_of_le _ _ (UInt64.le_iff_toNat_le.mpr hle)

lemma epochIdx_ok (hlen : c.links.length ≤ c.currentEpoch.toNat + 1) {ep : UInt64}
    (hlo : c.lo ≤ ep.toNat) (hle : ep.toNat ≤ c.currentEpoch.toNat)
    (hsmall : c.links.length < 2 ^ 63) : c.epochIdx ep = .ok (ep.toNat - c.lo) := by
  have hback := toNat_back hle
  have hlo' := hlo
  rw [lo] at hlo'
  have hint : (c.currentEpoch - ep).toInt64.toInt = ((c.currentEpoch.toNat - ep.toNat : Nat) : Int) := by
    rw [toInt_of_small (by rw [hback]; omega), hback]
  have hgt : ¬ ep > c.currentEpoch := fun h => absurd (UInt64.lt_iff_toNat_lt.mp h) (by omega)
  rw [epochIdx, if_neg hgt]
  simp only [hint]
  rw [if_neg (by omega), if_neg (by omega)]
  congr 1
  rw [lo]
  omega

lemma epochIdx_back (h : c.epochIdx ep = .ok i) :
    ep.toNat ≤ c.currentEpoch.toNat ∧ c.currentEpoch.toNat - ep.toNat < 2 ^ 63 ∧
      i + (c.currentEpoch.toNat - ep.toNat) + 1 = c.links.length := by
  rw [epochIdx] at h
  split at h
  · cases h
  · rename_i hgt
    have hle : ep.toNat ≤ c.currentEpoch.toNat :=
      UInt64.le_iff_toNat_le.mp (UInt64.not_lt.mp hgt)
    have hback := toNat_back hle
    dsimp only at h
    split at h
    · cases h
    · rename_i hlt
      split at h
      · cases h
      · rename_i hneg
        cases h
        by_cases hs : (c.currentEpoch - ep).toNat < 2 ^ 63
        · rw [toInt_of_small hs, hback] at hlt ⊢
          refine ⟨hle, by omega, ?_⟩
          rw [Int.toNat_natCast]
          omega
        · exact absurd (toInt_of_large (Nat.le_of_not_lt hs)) hneg

lemma epochIdx_inv (hlen : c.links.length ≤ c.currentEpoch.toNat + 1) (h : c.epochIdx ep = .ok i) :
    ep.toNat ≤ c.currentEpoch.toNat ∧ ep.toNat = c.lo + i ∧ i < c.links.length := by
  obtain ⟨hle, -, hi⟩ := epochIdx_back h
  refine ⟨hle, ?_, by omega⟩
  rw [lo]
  omega

lemma Window.length_le (hw : c.Window S R) : c.links.length ≤ c.currentEpoch.toNat + 1 := by
  have := hw.count
  omega

lemma Window.lo_eq (hw : c.Window S R) : c.lo = c.sendEpoch.toNat - 1 := by
  have := hw.count
  rw [lo]
  omega

lemma Window.exists_link (hw : c.Window S R) {n : Nat} (hlo : c.lo ≤ n) (hle : n ≤ c.currentEpoch.toNat) :
    ∃ l, c.links[n - c.lo]? = some l ∧ LinkOk S R c.sendEpoch.toNat n l := by
  have hlen := hw.length_le
  have hlt : n - c.lo < c.links.length := by
    rw [lo] at hlo ⊢
    omega
  refine ⟨c.links[n - c.lo], List.getElem?_eq_getElem hlt, ?_⟩
  have := hw.link (n - c.lo) _ (List.getElem?_eq_getElem hlt)
  rwa [Nat.add_sub_cancel' hlo] at this

lemma Window.lo_le_send (hw : c.Window S R) : c.lo ≤ c.sendEpoch.toNat := by
  rw [hw.lo_eq]
  exact Nat.sub_le _ _

lemma Window.epoch_le (hw : c.Window S R) {l : ChainEpoch} (h : c.links[i]? = some l) :
    c.lo + i ≤ c.currentEpoch.toNat := by
  obtain ⟨hlt, _⟩ := List.getElem?_eq_some_iff.mp h
  have := hw.length_le
  rw [lo]
  omega

lemma Window.mono (hw : c.Window S R) (hS : ∀ n d, n ≤ c.currentEpoch.toNat → S n d → S' n d)
    (hR : ∀ n d, n ≤ c.currentEpoch.toNat → R n d → R' n d) : c.Window S' R' := by
  refine ⟨hw.send_le, hw.count, fun i l hl => ?_⟩
  have hok := hw.link i l hl
  have hle := hw.epoch_le hl
  exact ⟨hR _ _ hle hok.recv, fun h => hS _ _ hle (hok.send h), hok.cleared⟩

lemma Window.set (hw : c.Window S R) {n : Nat} (hn : n = c.lo + i) {l : ChainEpoch}
    (hS : ∀ m d, m ≠ n → m ≤ c.currentEpoch.toNat → S m d → S' m d)
    (hR : ∀ m d, m ≠ n → m ≤ c.currentEpoch.toNat → R m d → R' m d) (hl : LinkOk S' R' c.sendEpoch.toNat n l) :
    Window S' R' { c with links := c.links.set i l } := by
  refine ⟨hw.send_le, by simpa using hw.count, ?_⟩
  intro j l' hj
  have hlo : Chain.lo { c with links := c.links.set i l } = c.lo := by simp [lo]
  rw [hlo]
  rw [List.getElem?_set] at hj
  split at hj
  · rename_i hij
    split at hj
    · cases hj
      rw [← hij, ← hn]
      exact hl
    · cases hj
  · have hok := hw.link j l' hj
    have hle := hw.epoch_le hj
    have hne : c.lo + j ≠ n := by omega
    exact ⟨hR _ _ hne hle hok.recv, fun h => hS _ _ hne hle (hok.send h), hok.cleared⟩

lemma Window.addEpoch [Hash] (hw : c.Window S R) {es : EpochSecret}
    (hep : es.epoch.toNat = c.currentEpoch.toNat + 1) (hS : S es.epoch.toNat
      (cedForDirection (chainHKDF c.nextRoot es.secret chainAddEpochInfo 96) c.dir)) (hR : R es.epoch.toNat
      (cedForDirection (chainHKDF c.nextRoot es.secret chainAddEpochInfo 96) (switchDirection c.dir))) :
    ∃ c', c.addEpoch es = .ok c' ∧ Window S R c' ∧ c'.currentEpoch = es.epoch ∧
      c'.sendEpoch = c.sendEpoch ∧ c'.dir = c.dir ∧ c'.params = c.params ∧
      c'.nextRoot = slice (chainHKDF c.nextRoot es.secret chainAddEpochInfo 96) 0 32 ∧
      c'.links.length = c.links.length + 1 := by
  have hes : es.epoch = c.currentEpoch + 1 := by
    apply UInt64.toNat_inj.mp
    have := es.epoch.toNat_lt
    rw [UInt64.toNat_add, hep]
    simp
    omega
  refine ⟨_, if_neg (not_not.mpr hes), ?_, rfl, rfl, rfl, rfl, rfl, by simp⟩
  have hlen := hw.length_le
  have hsend := hw.send_le
  have hcount := hw.count
  refine ⟨?_, ?_, ?_⟩
  · change c.sendEpoch.toNat ≤ es.epoch.toNat
    omega
  · simp only [List.length_append, List.length_singleton]
    omega
  · intro i l hi
    have hlo' : Chain.lo { c with
        currentEpoch := es.epoch,
        nextRoot := slice (chainHKDF c.nextRoot es.secret chainAddEpochInfo 96) 0 32,
        links := c.links ++ [epochFor (chainHKDF c.nextRoot es.secret chainAddEpochInfo 96) c.dir] }
        = c.lo := by
      simp only [lo, List.length_append, List.length_singleton, hep]
      omega
    rw [hlo']
    rw [List.getElem?_append] at hi
    split at hi
    · exact hw.link i l hi
    · rename_i hge
      have hi0 : i = c.links.length := by
        by_contra hne
        have : i - c.links.length ≥ 1 := by omega
        rw [List.getElem?_eq_none (by simpa using this)] at hi
        cases hi
      subst hi0
      simp only [Nat.sub_self, List.getElem?_cons_zero, Option.some.injEq] at hi
      subst hi
      have hn : c.lo + c.links.length = es.epoch.toNat := by
        rw [lo]
        omega
      rw [hn]
      refine ⟨hR, fun _ => hS, fun hlt => absurd hlt ?_⟩
      change ¬ es.epoch.toNat < c.sendEpoch.toNat
      omega

lemma popFront_eq (i : Nat) (links : List ChainEpoch) : popFront (i + 1) links = (links.drop i, 1) := by
  induction i generalizing links with
  | zero => rfl
  | succ i ih =>
    rw [popFront, if_pos (by simp [epochsToKeepPriorToSendEpoch]), ih, List.drop_tail]

lemma Window.moveSendEpoch (hw : c.Window S R) (hge : c.sendEpoch.toNat ≤ ep.toNat)
    (hle : ep.toNat ≤ c.currentEpoch.toNat) :
    ∃ c' i, c.moveSendEpoch ep (ep.toNat - c.lo) = (c', i) ∧ Window S R c' ∧
      ep.toNat = c'.lo + i ∧ c'.sendEpoch = ep ∧ c'.currentEpoch = c.currentEpoch ∧
      c'.dir = c.dir ∧ c'.params = c.params ∧ c'.nextRoot = c.nextRoot := by
  have hlosend := hw.lo_le_send
  by_cases hsame : c.sendEpoch = ep
  · refine ⟨c, ep.toNat - c.lo, if_neg (not_not.mpr hsame), hw, ?_, hsame, rfl, rfl, rfl, rfl⟩
    omega
  · have hlt : c.sendEpoch.toNat < ep.toNat :=
      lt_of_le_of_ne hge (fun h => hsame (UInt64.toNat_inj.mp h))
    have hlen := hw.length_le
    have hidx : ep.toNat - c.lo = (ep.toNat - c.lo - 1) + 1 := by omega
    let links' := c.links.drop (ep.toNat - c.lo - 1)
    have hlen' : links'.length = c.currentEpoch.toNat + 2 - ep.toNat := by
      simp only [links', List.length_drop]
      rw [lo] at *
      omega
    have hclear : (clearBefore 1 links').length = c.currentEpoch.toNat + 2 - ep.toNat := by
      simp only [clearBefore, List.length_append, List.length_map, List.length_take, List.length_drop, hlen']
      omega
    refine ⟨{ c with sendEpoch := ep, links := clearBefore 1 links' }, 1, ?_, ?_, ?_, rfl, rfl, rfl, rfl, rfl⟩
    · rw [Chain.moveSendEpoch, if_pos hsame, hidx, popFront_eq]
    · have hlo' : Chain.lo { c with sendEpoch := ep, links := clearBefore 1 links' }
          = ep.toNat - 1 := by
        simp only [lo, hclear]
        omega
      refine ⟨hle, ?_, ?_⟩
      · simp only [hclear]
        omega
      · intro j l hj
        rw [hlo']
        cases hl : links' with
        | nil => simp only [hl, List.length_nil] at hlen'; omega
        | cons l0 rest =>
          have hold : ∀ j l, links'[j]? = some l →
              LinkOk S R c.sendEpoch.toNat (ep.toNat - 1 + j) l := by
            intro j l hj
            rw [List.getElem?_drop] at hj
            have := hw.link _ l hj
            rwa [show c.lo + (ep.toNat - c.lo - 1 + j) = ep.toNat - 1 + j by omega] at this
          simp only [hl, clearBefore, List.take_succ_cons, List.take_zero, List.map_cons, List.map_nil,
            List.drop_succ_cons, List.drop_zero, List.cons_append, List.nil_append] at hj
          cases j with
          | zero =>
            simp only [List.getElem?_cons_zero, Option.some.injEq] at hj
            subst hj
            have h0 := hold 0 l0 (by rw [hl]; rfl)
            refine ⟨h0.recv, fun h => absurd h (by simp; omega), fun _ => rfl⟩
          | succ j =>
            have hj' := hold (j + 1) l (by rw [hl]; exact hj)
            exact ⟨hj'.recv, fun h => hj'.send (by omega), fun h => absurd h (by simp; omega)⟩
    · simp only [lo, hclear]
      omega

lemma Window.sendKey [Hash] (hw : c.Window S R) (hge : c.sendEpoch.toNat ≤ ep.toNat)
    (hle : ep.toNat ≤ c.currentEpoch.toNat) (hsmall : c.links.length < 2 ^ 63) :
    ∃ d c', c.sendKey ep = .ok (d.nextKey.1, c') ∧ S ep.toNat d ∧ (∀ S' : Nat → ChainEpochDirection → Prop,
        (∀ n d, n ≠ ep.toNat → n ≤ c.currentEpoch.toNat → S n d → S' n d) →
        S' ep.toNat d.nextKey.2 → Window S' R c') ∧ c'.sendEpoch = ep ∧
      c'.currentEpoch = c.currentEpoch ∧ c'.dir = c.dir ∧ c'.params = c.params ∧ c'.nextRoot = c.nextRoot := by
  have hlosend := hw.lo_le_send
  obtain ⟨c1, i, hmove, hw1, hep, hsend, hcur, hdir, hpar, hroot⟩ := hw.moveSendEpoch hge hle
  obtain ⟨l, hl, hok⟩ := hw1.exists_link (n := ep.toNat) (by omega) (by rw [hcur]; exact hle)
  have hi : ep.toNat - c1.lo = i := by omega
  rw [hi] at hl
  have hS : S ep.toNat l.send := hok.send (by rw [hsend])
  have hnot : ¬ ep < c.sendEpoch := fun h => absurd (UInt64.lt_iff_toNat_lt.mp h) (by omega)
  refine ⟨l.send, { c1 with links := c1.links.set i { l with send := l.send.nextKey.2 } }, ?_, hS, ?_,
    hsend, hcur, hdir, hpar, hroot⟩
  · rw [Chain.sendKey, if_neg hnot, epochIdx_ok hw.length_le (by omega) hle hsmall]
    simp only [ok_bind, hmove, hl]
  · intro S' hother hS'
    refine hw1.set hep (fun n d hn hle' => hother n d hn (by rwa [hcur] at hle'))
      (fun _ _ _ _ h => h) ⟨hok.recv, fun _ => hS', fun h => ?_⟩
    rw [hsend] at h
    exact absurd h (lt_irrefl _)

lemma Window.recvKey_inv [Hash] (hw : c.Window S R) {k : Bytes} {c' : Chain} (hne : ¬ (ep = 0 ∧ idx = 0))
    (h : c.recvKey ep idx = .ok (k, c')) : ∃ d d', R ep.toNat d ∧ d.key idx c.params = .ok (k, d') ∧
      (∀ R' : Nat → ChainEpochDirection → Prop,
        (∀ n d, n ≠ ep.toNat → n ≤ c.currentEpoch.toNat → R n d → R' n d) → R' ep.toNat d' → Window S R' c') ∧
      c.lo ≤ ep.toNat ∧ ep.toNat ≤ c.currentEpoch.toNat ∧ c'.currentEpoch = c.currentEpoch ∧
      c'.sendEpoch = c.sendEpoch ∧ c'.dir = c.dir ∧ c'.params = c.params ∧ c'.nextRoot = c.nextRoot := by
  rw [recvKey, if_neg hne] at h
  obtain ⟨i, hi, h⟩ := bind_eq_ok h
  obtain ⟨hle, hep, hlt⟩ := epochIdx_inv hw.length_le hi
  cases hl : c.links[i]? with
  | none => rw [hl] at h; cases h
  | some l =>
    rw [hl] at h
    obtain ⟨⟨k', d'⟩, hk, h⟩ := bind_eq_ok h
    cases h
    have hok := hw.link i l hl
    rw [← hep] at hok
    refine ⟨l.recv, d', hok.recv, hk, ?_, by omega, hle, rfl, rfl, rfl, rfl, rfl⟩
    intro R' hother hR
    exact hw.set hep (fun _ _ _ _ h => h) hother ⟨hR, hok.send, hok.cleared⟩

lemma Window.recvKey_ok [Hash] (hw : c.Window S R) (hne : ¬ (ep = 0 ∧ idx = 0)) (hlo : c.lo ≤ ep.toNat)
    (hle : ep.toNat ≤ c.currentEpoch.toNat) (hsmall : c.links.length < 2 ^ 63) :
    ∃ d, R ep.toNat d ∧ ∀ k d', d.key idx c.params = .ok (k, d') → ∃ c', c.recvKey ep idx = .ok (k, c') := by
  obtain ⟨l, hl, hok⟩ := hw.exists_link hlo hle
  refine ⟨l.recv, hok.recv, fun k d' hk => ?_⟩
  rw [recvKey, if_neg hne, epochIdx_ok hw.length_le hlo hle hsmall]
  simp only [ok_bind, hl, hk]
  exact ⟨_, rfl⟩

end Chain

end LibSignal.Spqr
