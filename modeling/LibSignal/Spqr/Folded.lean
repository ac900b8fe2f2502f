import LibSignal.Spqr.Window

/-!
# The secrets folded into a chain

`epochGen` gives the key material of every epoch from the authentication key and the epoch secrets, in the
terms of the key schedule alone.
-/

namespace LibSignal.Spqr
open Chunked Crypto Lib

section
variable [Hash]

def epochGen (authKey : Bytes) (secret : Nat → Bytes) : Nat → Bytes
  | 0 => chainHKDF zeroSalt32 authKey chainStartInfo 96
  | n + 1 => chainHKDF (slice (epochGen authKey secret n) 0 32) (secret (n + 1)) chainAddEpochInfo 96

lemma epochGen_congr {authKey : Bytes} {sec sec' : Nat → Bytes} {n : Nat}
    (h : ∀ m, 1 ≤ m → m ≤ n → sec m = sec' m) : epochGen authKey sec n = epochGen authKey sec' n := by
  induction n with
  | zero => rfl
  | succ n ih =>
    rw [epochGen, epochGen, ih (fun m h1 h2 => h m h1 (by omega)), h (n + 1) (by omega) (by omega)]

lemma length_epochGen (authKey : Bytes) (sec : Nat → Bytes) (n : Nat) :
    (epochGen authKey sec n).length = 96 := by
  cases n with
  | zero => exact length_chainHKDF _ _ _ _ (by decide)
  | succ n => exact length_chainHKDF _ _ _ _ (by decide)

namespace Chain

def secretAt (fs : List EpochSecret) (n : Nat) : Bytes :=
  ((fs[n - 1]?).map EpochSecret.secret).getD []

variable {fs : List EpochSecret} {n : Nat}

omit [Hash] in
lemma secretAt_append (gs : List EpochSecret) (h1 : 1 ≤ n) (hn : n ≤ fs.length) :
    secretAt (fs ++ gs) n = secretAt fs n := by
  rw [secretAt, secretAt, List.getElem?_append_left (by omega)]

omit [Hash] in
lemma secretAt_last (fs : List EpochSecret) (es : EpochSecret) :
    secretAt (fs ++ [es]) (fs.length + 1) = es.secret := by
  simp [secretAt]

def seedAt (authKey : Bytes) (fs : List EpochSecret) (n : Nat) (dir : Direction) : Bytes :=
  seedFor (epochGen authKey (secretAt fs) n) dir

lemma length_seedAt (authKey : Bytes) (fs : List EpochSecret) (n : Nat) (dir : Direction) :
    (seedAt authKey fs n dir).length = 32 :=
  length_seedFor (length_epochGen _ _ _) dir

lemma epochGen_append {authKey : Bytes} (gs : List EpochSecret) (hn : n ≤ fs.length) :
    epochGen authKey (secretAt (fs ++ gs)) n = epochGen authKey (secretAt fs) n :=
  epochGen_congr fun _ h1 h2 => secretAt_append gs h1 (by omega)

lemma seedAt_agree {authKey : Bytes} {gs : List EpochSecret}
    (h : ∀ (i : Nat) (x y : EpochSecret), fs[i]? = some x → gs[i]? = some y → x.secret = y.secret)
    (hf : n ≤ fs.length) (hg : n ≤ gs.length) (dir : Direction) :
    seedAt authKey fs n dir = seedAt authKey gs n dir := by
  rw [seedAt, seedAt, epochGen_congr]
  intro m h1 hm
  have hfm : fs[m - 1]? = some (fs.get ⟨m - 1, by omega⟩) := List.getElem?_eq_getElem _
  have hgm : gs[m - 1]? = some (gs.get ⟨m - 1, by omega⟩) := List.getElem?_eq_getElem _
  rw [secretAt, secretAt, hfm, hgm]
  exact h _ _ _ hfm hgm

/-- The chain holds the window of epochs derived from the authentication key and the secrets `fs`, which
were folded in the order 1, 2, 3, …. -/
structure Folded (S R : Nat → Bytes → ChainEpochDirection → Prop) (authKey : Bytes) (dir : Direction)
    (fs : List EpochSecret) (c : Chain) : Prop where
  dir_eq : c.dir = dir
  window : c.Window (fun n d => S n (seedAt authKey fs n dir) d)
    (fun n d => R n (seedAt authKey fs n (switchDirection dir)) d)
  root : c.nextRoot = slice (epochGen authKey (secretAt fs) c.currentEpoch.toNat) 0 32
  order : fs.map (fun es => es.epoch.toNat) = List.range' 1 c.currentEpoch.toNat

namespace Folded
variable {S R : Nat → Bytes → ChainEpochDirection → Prop} {authKey : Bytes} {dir : Direction}
  {fs : List EpochSecret} {c c' : Chain}

lemma length_eq (h : Folded S R authKey dir fs c) : fs.length = c.currentEpoch.toNat := by
  have hlen := congrArg List.length h.order
  rwa [List.length_map, List.length_range'] at hlen

lemma new (params : ChainParams) (hS : ∀ seed, seed.length = 32 → S 0 seed (.new seed))
    (hR : ∀ seed, seed.length = 32 → R 0 seed (.new seed)) :
    Folded S R authKey dir [] (Chain.new authKey dir params) := by
  refine ⟨rfl, ⟨le_refl 0, rfl, ?_⟩, rfl, rfl⟩
  intro i l hl
  cases i with
  | zero =>
    cases hl
    exact ⟨hR _ (length_seedAt _ _ _ _), fun _ => hS _ (length_seedAt _ _ _ _),
      fun h => absurd h (Nat.not_lt_zero _)⟩
  | succ i => cases hl

lemma addEpoch (h : Folded S R authKey dir fs c) {es : EpochSecret}
    (hep : es.epoch.toNat = c.currentEpoch.toNat + 1)
    (hS : ∀ seed, seed.length = 32 → S es.epoch.toNat seed (.new seed))
    (hR : ∀ seed, seed.length = 32 → R es.epoch.toNat seed (.new seed)) :
    ∃ c', c.addEpoch es = .ok c' ∧ Folded S R authKey dir (fs ++ [es]) c' ∧
      c'.currentEpoch = es.epoch ∧ c'.sendEpoch = c.sendEpoch ∧ c'.params = c.params := by
  have hlen := h.length_eq
  have hold : ∀ n, n ≤ c.currentEpoch.toNat → ∀ d,
      seedAt authKey (fs ++ [es]) n d = seedAt authKey fs n d := by
    intro n hn d
    rw [seedAt, seedAt, epochGen_append [es] (by omega)]
  have hnew : chainHKDF c.nextRoot es.secret chainAddEpochInfo 96
      = epochGen authKey (secretAt (fs ++ [es])) es.epoch.toNat := by
    rw [hep, epochGen, epochGen_append [es] (by omega), h.root, ← hlen, secretAt_last]
  have hwin : c.Window (fun n d => S n (seedAt authKey (fs ++ [es]) n dir) d)
      (fun n d => R n (seedAt authKey (fs ++ [es]) n (switchDirection dir)) d) := by
    refine h.window.mono (fun n d hn hd => ?_) (fun n d hn hd => ?_)
    · rwa [hold n hn]
    · rwa [hold n hn]
  obtain ⟨c', hadd, hw', hcur, hsend, hdir, hpar, hroot, _⟩ := hwin.addEpoch hep
    (by rw [hnew, h.dir_eq]; exact hS _ (length_seedAt _ _ _ _))
    (by rw [hnew, h.dir_eq]; exact hR _ (length_seedAt _ _ _ _))
  refine ⟨c', hadd, ⟨hdir.trans h.dir_eq, hw', ?_, ?_⟩, hcur, hsend, hpar⟩
  · rw [hroot, hnew, hcur]
  · rw [List.map_append, h.order, hcur, hep, List.range'_concat]
    simp [hep, Nat.add_comm]

lemma sendKey (h : Folded S R authKey dir fs c) {ep : UInt64}
    (hge : c.sendEpoch.toNat ≤ ep.toNat) (hle : ep.toNat ≤ c.currentEpoch.toNat)
    (hsmall : c.links.length < 2 ^ 63) :
    ∃ d c', c.sendKey ep = .ok (d.nextKey.1, c') ∧ S ep.toNat (seedAt authKey fs ep.toNat dir) d ∧
      (∀ S' : Nat → Bytes → ChainEpochDirection → Prop, (∀ n seed d, n ≠ ep.toNat → S n seed d → S' n seed d) →
        S' ep.toNat (seedAt authKey fs ep.toNat dir) d.nextKey.2 → Folded S' R authKey dir fs c') ∧
      c'.sendEpoch = ep ∧ c'.currentEpoch = c.currentEpoch ∧ c'.params = c.params := by
  obtain ⟨d, c', hkey, hd, hw, hsend, hcur, hdir, hpar, hroot⟩ := h.window.sendKey hge hle hsmall
  refine ⟨d, c', hkey, hd, ?_, hsend, hcur, hpar⟩
  intro S' hother hd'
  refine ⟨hdir.trans h.dir_eq, hw _ (fun n d hn _ => hother n _ d hn) hd', ?_, ?_⟩
  · rw [hroot, hcur]; exact h.root
  · rw [hcur]; exact h.order

lemma recvKey (h : Folded S R authKey dir fs c) {ep : UInt64} {idx : UInt32} {k : Bytes}
    (hne : ¬ (ep = 0 ∧ idx = 0)) (hkey : c.recvKey ep idx = .ok (k, c')) :
    ∃ d d', R ep.toNat (seedAt authKey fs ep.toNat (switchDirection dir)) d ∧ d.key idx c.params = .ok (k, d') ∧
      (∀ R' : Nat → Bytes → ChainEpochDirection → Prop, (∀ n seed d, n ≠ ep.toNat → R n seed d → R' n seed d) →
        R' ep.toNat (seedAt authKey fs ep.toNat (switchDirection dir)) d' → Folded S R' authKey dir fs c') ∧
      ep.toNat ≤ c.currentEpoch.toNat ∧ c'.currentEpoch = c.currentEpoch ∧
      c'.sendEpoch = c.sendEpoch ∧ c'.params = c.params := by
  obtain ⟨d, d', hd, hk, hw, _, hle, hcur, hsend, hdir, hpar, hroot⟩ := h.window.recvKey_inv hne hkey
  refine ⟨d, d', hd, hk, ?_, hle, hcur, hsend, hpar⟩
  intro R' hother hd'
  refine ⟨hdir.trans h.dir_eq, hw _ (fun n d hn _ => hother n _ d hn) hd', ?_, ?_⟩
  · rw [hroot, hcur]; exact h.root
  · rw [hcur]; exact h.order

end Folded

end Chain

end

end LibSignal.Spqr
