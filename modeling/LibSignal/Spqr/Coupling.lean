import LibSignal.Spqr.Folded
import LibSignal.Spqr.Loaded

/-!
# Coupling of the v1 machine and the epoch chain

No function compares the epoch of the v1 machine with the epochs of the key chain.
-/

namespace LibSignal.Spqr
open Chunked Crypto Lib

def Tag.ahead : Tag → Bool
  | .ct1Sampled | .ekReceivedCt1Sampled | .ct1Acknowledged | .ct2Sampled => true
  | _ => false

def Tag.early : Tag → Bool
  | .keysUnsampled | .noHeaderReceived | .headerReceived => true
  | _ => false

lemma RecvTag.ahead {t t' : Tag} (h : RecvTag t t') : t'.ahead = t.ahead := by
  cases h <;> rfl

lemma RecvTag.early {t t' : Tag} (h : RecvTag t t') : t'.early = t.early := by
  cases h <;> rfl

section
variable [Hash]

structure Coupled (S R : Nat → Bytes → ChainEpochDirection → Prop) (authKey : Bytes) (dir : Direction)
    (fs : List EpochSecret) (s : V1State) (c : Chain) : Prop where
  chain : c.Folded S R authKey dir fs
  current : c.currentEpoch.toNat + 1 = s.epoch.toNat + (if s.tag.ahead then 1 else 0)
  send_lt : c.sendEpoch.toNat + 1 ≤ s.epoch.toNat
  send_ge : s.epoch.toNat ≤ c.sendEpoch.toNat + (if s.tag.early then 2 else 1)

omit [Hash] in
lemma Tag.early_or_ahead (t : Tag) : t.early = false ∨ t.ahead = false := by
  cases t <;> simp [Tag.early, Tag.ahead]

namespace Coupled
variable {S R S' R' : Nat → Bytes → ChainEpochDirection → Prop} {authKey : Bytes} {dir : Direction}
  {fs : List EpochSecret} {s s' : V1State} {c c' : Chain}

lemma of_tag (h : Coupled S R authKey dir fs s c) (htag : s'.tag = s.tag)
    (hepoch : s'.epoch = s.epoch) : Coupled S R authKey dir fs s' c :=
  ⟨h.chain, by rw [htag, hepoch]; exact h.current, by rw [hepoch]; exact h.send_lt,
    by rw [htag, hepoch]; exact h.send_ge⟩

lemma of_like (h : Coupled S R authKey dir fs s c) (hl : V1State.Like s s') : Coupled S R authKey dir fs s' c :=
  h.of_tag hl.tag hl.epoch

lemma mono (h : Coupled S R authKey dir fs s c) (hS : ∀ n seed d, S n seed d → S' n seed d)
    (hR : ∀ n seed d, R n seed d → R' n seed d) : Coupled S' R' authKey dir fs s c :=
  ⟨⟨h.chain.dir_eq, h.chain.window.mono (fun n d _ => hS n _ d) (fun n d _ => hR n _ d), h.chain.root,
    h.chain.order⟩, h.current, h.send_lt, h.send_ge⟩

lemma current_le (h : Coupled S R authKey dir fs s c) : c.currentEpoch.toNat ≤ c.sendEpoch.toNat + 1 := by
  have hcur := h.current
  have hge := h.send_ge
  rcases s.tag.early_or_ahead with he | ha
  · rw [he] at hge
    split at hcur <;> simp at hge <;> omega
  · rw [ha] at hcur
    split at hge <;> simp at hcur <;> omega

lemma length_le (h : Coupled S R authKey dir fs s c) : c.links.length ≤ 3 := by
  have := h.current_le
  have := h.chain.window.count
  omega

lemma initial (p : Params) (params : ChainParams) (hS : ∀ seed, seed.length = 32 → S 0 seed (.new seed))
    (hR : ∀ seed, seed.length = 32 → R 0 seed (.new seed)) :
    Coupled S R p.authKey p.direction [] p.start (.new p.authKey p.direction params) := by
  refine ⟨Chain.Folded.new params hS hR, ?_, ?_, ?_⟩
  all_goals
    rcases p.start_tag with ht | ht <;> simp [ht, Chain.new, Tag.ahead, Tag.early]

lemma draw (h : c.Folded S R authKey dir fs) (hlen : c.links.length ≤ 4)
    (hepoch : s'.epoch = s.epoch) (hlt : c.sendEpoch.toNat + 1 ≤ s.epoch.toNat)
    (hcur : c.currentEpoch.toNat + 1 = s.epoch.toNat + (if s'.tag.ahead then 1 else 0)) :
    ∃ d c2, c.sendKey (s.epoch - 1) = .ok (d.nextKey.1, c2) ∧
      S (s.epoch.toNat - 1) (Chain.seedAt authKey fs (s.epoch.toNat - 1) dir) d ∧
      (∀ S' : Nat → Bytes → ChainEpochDirection → Prop,
        (∀ n seed d, n ≠ s.epoch.toNat - 1 → S n seed d → S' n seed d) →
        S' (s.epoch.toNat - 1) (Chain.seedAt authKey fs (s.epoch.toNat - 1) dir) d.nextKey.2 →
        Coupled S' R authKey dir fs s' c2) ∧ c2.params = c.params := by
  have hpred : (s.epoch - 1).toNat = s.epoch.toNat - 1 :=
    UInt64.toNat_sub_of_le _ _ (UInt64.le_iff_toNat_le.mpr (by change 1 ≤ _; omega))
  have hge : c.sendEpoch.toNat ≤ (s.epoch - 1).toNat := by rw [hpred]; omega
  have hle : (s.epoch - 1).toNat ≤ c.currentEpoch.toNat := by rw [hpred]; omega
  obtain ⟨d, c2, hkey, hd, hf2, hsend2, hcur2, hpar2⟩ := h.sendKey hge hle (by omega)
  rw [hpred] at hd hf2
  refine ⟨d, c2, hkey, hd, fun S' hother hd' => ⟨hf2 S' hother hd', ?_, ?_, ?_⟩, hpar2⟩
  · rw [hcur2, hepoch]; exact hcur
  · rw [hsend2, hpred, hepoch]; omega
  · rw [hsend2, hpred, hepoch]; split <;> omega

lemma send (h : Coupled S R authKey dir fs s c) {es : Option EpochSecret}
    (hepoch : s'.epoch = s.epoch) (hmove : V1State.SendMove s s' es)
    (hS : es.isSome → ∀ seed, seed.length = 32 → S s.epoch.toNat seed (.new seed))
    (hR : es.isSome → ∀ seed, seed.length = 32 → R s.epoch.toNat seed (.new seed)) :
    ∃ c1 d c2, addSecret c es = .ok c1 ∧ c1.sendKey (s.epoch - 1) = .ok (d.nextKey.1, c2) ∧
      S (s.epoch.toNat - 1) (Chain.seedAt authKey (fs ++ es.toList) (s.epoch.toNat - 1) dir) d ∧
      (∀ S' : Nat → Bytes → ChainEpochDirection → Prop,
        (∀ n seed d, n ≠ s.epoch.toNat - 1 → S n seed d → S' n seed d) → S' (s.epoch.toNat - 1)
          (Chain.seedAt authKey (fs ++ es.toList) (s.epoch.toNat - 1) dir) d.nextKey.2 →
        Coupled S' R authKey dir (fs ++ es.toList) s' c2) ∧ c2.params = c.params := by
  have hlt := h.send_lt
  have hcur := h.current
  have hlen := h.length_le
  cases hmove with
  | again htag _ _ =>
    rw [Option.toList_none, List.append_nil]
    exact ⟨c, (draw h.chain (by omega) hepoch hlt (by rw [htag]; exact hcur)).imp fun _ h =>
      h.imp fun _ h => ⟨rfl, h⟩⟩
  | sampleKeys htag htag' =>
    rw [Option.toList_none, List.append_nil]
    rw [htag] at hcur
    exact ⟨c, (draw h.chain (by omega) hepoch hlt (by rw [htag']; exact hcur)).imp fun _ h =>
      h.imp fun _ h => ⟨rfl, h⟩⟩
  | sampleCt1 htag htag' secret =>
    rw [htag] at hcur
    simp only [Tag.ahead, Bool.false_eq_true, if_false] at hcur
    have hep : (⟨s.epoch, secret⟩ : EpochSecret).epoch.toNat = c.currentEpoch.toNat + 1 := by
      dsimp only
      omega
    obtain ⟨c1, hadd, hf1, hcur1, hsend1, hpar1⟩ := h.chain.addEpoch hep (hS rfl) (hR rfl)
    have hlen1 : c1.links.length ≤ 4 := by
      have hle := hf1.window.count
      have hle' := h.current_le
      rw [hcur1, hsend1] at hle
      dsimp only at hle
      omega
    obtain ⟨d, c2, hkey, hd, hnext, hpar2⟩ := draw hf1 hlen1 hepoch (by rw [hsend1]; exact hlt)
      (by rw [hcur1, htag']; simp [Tag.ahead])
    exact ⟨c1, d, c2, hadd, hkey, hd, hnext, hpar2.trans hpar1⟩

lemma recv (h : Coupled S R authKey dir fs s c) (hsmall : s.epoch.toNat + 1 < 2 ^ 64) {e : UInt64}
    {es : Option EpochSecret} (hmove : V1State.RecvMove s s' e es)
    (hS : es.isSome → ∀ seed, seed.length = 32 → S s.epoch.toNat seed (.new seed))
    (hR : es.isSome → ∀ seed, seed.length = 32 → R s.epoch.toNat seed (.new seed)) :
    ∃ c1, addSecret c es = .ok c1 ∧ Coupled S R authKey dir (fs ++ es.toList) s' c1 ∧ c1.params = c.params := by
  have hlt := h.send_lt
  have hge := h.send_ge
  have hcur := h.current
  have hsucc := toNat_epoch_succ hsmall
  cases hmove with
  | inEpoch htag hepoch _ =>
    refine ⟨c, rfl, ?_, rfl⟩
    rw [Option.toList_none, List.append_nil]
    refine ⟨h.chain, ?_, ?_, ?_⟩
    · rw [htag.ahead, hepoch]; exact hcur
    · rw [hepoch]; exact hlt
    · rw [htag.early, hepoch]; exact hge
  | nextEpoch htag htag' hmsg _ hepoch =>
    rw [htag] at hcur hge
    simp only [Tag.ahead, Tag.early, if_true, Bool.false_eq_true, if_false] at hcur hge
    refine ⟨c, rfl, ?_, rfl⟩
    rw [Option.toList_none, List.append_nil]
    refine ⟨h.chain, ?_, ?_, ?_⟩
    all_goals
      rw [hepoch, hmsg, hsucc]
      try simp only [htag', Tag.ahead, Tag.early, if_true, Bool.false_eq_true, if_false]
      omega
  | finish htag htag' _ hepoch secret =>
    rw [htag] at hcur hge
    simp only [Tag.ahead, Tag.early, Bool.false_eq_true, if_false] at hcur hge
    have hep : (⟨s.epoch, secret⟩ : EpochSecret).epoch.toNat = c.currentEpoch.toNat + 1 := by
      dsimp only
      omega
    obtain ⟨c1, hadd, hf1, hcur1, hsend1, hpar1⟩ := h.chain.addEpoch hep (hS rfl) (hR rfl)
    refine ⟨c1, hadd, ⟨hf1, ?_, ?_, ?_⟩, hpar1⟩
    · rw [hcur1, hepoch, hsucc, htag']
      simp [Tag.ahead]
    · rw [hsend1, hepoch, hsucc]
      omega
    · rw [hsend1, hepoch, hsucc, htag']
      simp only [Tag.early, if_true]
      omega

lemma recvKey (h : Coupled S R authKey dir fs s c) {ep : UInt64} {idx : UInt32} {k : Bytes}
    (hne : ¬ (ep = 0 ∧ idx = 0)) (hkey : c.recvKey ep idx = .ok (k, c')) :
    ∃ d d', R ep.toNat (Chain.seedAt authKey fs ep.toNat (switchDirection dir)) d ∧
      d.key idx c.params = .ok (k, d') ∧ (∀ R' : Nat → Bytes → ChainEpochDirection → Prop,
        (∀ n seed d, n ≠ ep.toNat → R n seed d → R' n seed d) →
        R' ep.toNat (Chain.seedAt authKey fs ep.toNat (switchDirection dir)) d' →
        Coupled S R' authKey dir fs s c') ∧ ep.toNat ≤ c.currentEpoch.toNat ∧ c'.params = c.params := by
  obtain ⟨d, d', hd, hk, hf, hle, hcur, hsend, hpar⟩ := h.chain.recvKey hne hkey
  refine ⟨d, d', hd, hk, fun R' hother hd' => ⟨hf R' hother hd', ?_, ?_, ?_⟩, hle, hpar⟩
  · rw [hcur]; exact h.current
  · rw [hsend]; exact h.send_lt
  · rw [hsend]; exact h.send_ge

end Coupled

end

end LibSignal.Spqr
