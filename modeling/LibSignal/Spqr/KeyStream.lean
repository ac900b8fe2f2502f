import LibSignal.Spqr.Chain

/-!
# Key streams

`streamKey` is the abstract content of one direction of an epoch: the `n`-th key derived from the direction's
seed.
-/

namespace LibSignal.Spqr
open Chunked Crypto

lemma slice_middle (a b c : Bytes) : slice (a ++ (b ++ c)) a.length (a.length + b.length) = b := by
  simp [slice]

namespace KeyHistory

def pack (e : UInt32 × Bytes) : Bytes := be32 e.1 ++ e.2

structure Packs (h : KeyHistory) (es : List (UInt32 × Bytes)) : Prop where
  data : h.data = es.flatMap pack
  size : ∀ e ∈ es, e.2.length = 32

variable {e : UInt32 × Bytes} {es post pre : List (UInt32 × Bytes)} {h : KeyHistory}

lemma length_pack (h : e.2.length = 32) : (pack e).length = keyHistoryEntry := by
  simp [pack, be32, h, keyHistoryEntry]

lemma length_packs (h : ∀ e ∈ es, e.2.length = 32) : (es.flatMap pack).length = keyHistoryEntry * es.length := by
  induction es with
  | nil => rfl
  | cons e es ih =>
    rw [List.flatMap_cons, List.length_append, length_pack (h e (by simp)),
      ih (fun e' he => h e' (by simp [he])), List.length_cons]
    ring

lemma Packs.add (hp : h.Packs es) (idx : UInt32) {k : Bytes} (hk : k.length = 32) :
    (h.add idx k).Packs (es ++ [(idx, k)]) := by
  refine ⟨?_, ?_⟩
  · simp [KeyHistory.add, hp.data, pack]
  · intro e he
    rcases List.mem_append.mp he with he | he
    · exact hp.size e he
    · rw [List.mem_singleton.mp he]
      exact hk

lemma Packs.remove (hp : h.Packs (pre ++ e :: post)) :
    ∃ post', (h.remove (keyHistoryEntry * pre.length)).Packs (pre ++ post') ∧ post'.Perm post := by
  have hpre := length_packs (fun e' he' => hp.size e' (by simp [he']) : ∀ e' ∈ pre, _)
  have he := length_pack (hp.size e (by simp))
  have hdata : h.data = pre.flatMap pack ++ (pack e ++ post.flatMap pack) := by
    rw [hp.data]; simp
  cases hpost : post.reverse with
  | nil =>
    -- the record is the last one: the data is cut off before it
    have hnil : post = [] := by simpa using hpost
    subst hnil
    refine ⟨[], ⟨?_, fun e' he' => hp.size e' (by simp at he'; simp [he'])⟩, by simp⟩
    have hlen : h.data.length = keyHistoryEntry * pre.length + keyHistoryEntry := by
      rw [hdata]; simp [hpre, he]
    rw [KeyHistory.remove, if_neg (by omega), hlen, Nat.add_sub_cancel, hdata, ← hpre]
    simp
  | cons last midRev =>
    -- the last record moves into the gap
    have hsplit : post = midRev.reverse ++ [last] := by
      rw [← List.reverse_reverse post, hpost]; simp
    have hl := length_pack (hp.size last (by simp [hsplit]))
    refine ⟨last :: midRev.reverse, ⟨?_, ?_⟩, ?_⟩
    · have hmid := length_packs
        (fun e' he' => hp.size e' (by simp [hsplit] at he' ⊢; simp [he']) : ∀ e' ∈ midRev.reverse, _)
      have hdata' : h.data = (pre.flatMap pack ++ pack e ++ midRev.reverse.flatMap pack)
          ++ pack last := by
        rw [hdata, hsplit]; simp
      have hlen : h.data.length - keyHistoryEntry
          = (pre.flatMap pack ++ pack e ++ midRev.reverse.flatMap pack).length := by
        rw [hdata', List.length_append, hl, Nat.add_sub_cancel]
      have hlt : keyHistoryEntry * pre.length + keyHistoryEntry < h.data.length := by
        rw [hdata']
        simp only [List.length_append, hpre, he, hl, keyHistoryEntry]
        omega
      have hdrop : h.data.drop (h.data.length - keyHistoryEntry) = pack last := by
        rw [hlen, hdata', List.drop_left]
      have htake : h.data.take (keyHistoryEntry * pre.length) = pre.flatMap pack := by
        rw [← hpre, hdata]; simp
      have hrest : h.data.drop (keyHistoryEntry * pre.length + keyHistoryEntry)
          = midRev.reverse.flatMap pack ++ pack last := by
        have : keyHistoryEntry * pre.length + keyHistoryEntry
            = (pre.flatMap pack ++ pack e).length := by rw [List.length_append, hpre, he]
        rw [this, hdata', List.append_assoc _ (midRev.reverse.flatMap pack), List.drop_left]
      have hend : h.data.length - keyHistoryEntry
          = (pre.flatMap pack ++ (pack last ++ midRev.reverse.flatMap pack)).length := by
        rw [hlen]
        simp only [List.length_append, he, hl]
        omega
      simp only [KeyHistory.remove, if_pos hlt, hdrop, htake, hrest]
      have hcat : pre.flatMap pack ++ pack last ++ (midRev.reverse.flatMap pack ++ pack last)
          = (pre.flatMap pack ++ (pack last ++ midRev.reverse.flatMap pack)) ++ pack last := by
        simp
      rw [hend, hcat, List.take_left]
      simp
    · intro e' he'
      apply hp.size e'
      simp [hsplit] at he' ⊢
      tauto
    · rw [hsplit]
      exact (List.perm_append_singleton last midRev.reverse).symm

lemma Packs.slice_index (hp : h.Packs (pre ++ e :: post)) :
    slice h.data (keyHistoryEntry * pre.length) (keyHistoryEntry * pre.length + 4) = be32 e.1 := by
  have hpre := length_packs (fun e' he' => hp.size e' (by simp [he']) : ∀ e' ∈ pre, _)
  have hdata : h.data = pre.flatMap pack ++ (be32 e.1 ++ (e.2 ++ post.flatMap pack)) := by
    rw [hp.data]; simp [pack]
  rw [hdata, ← hpre]
  exact slice_middle _ (be32 e.1) _

lemma Packs.slice_key (hp : h.Packs (pre ++ e :: post)) : slice h.data (keyHistoryEntry * pre.length + 4)
      (keyHistoryEntry * pre.length + keyHistoryEntry) = e.2 := by
  have hpre := length_packs (fun e' he' => hp.size e' (by simp [he']) : ∀ e' ∈ pre, _)
  have hdata : h.data = (pre.flatMap pack ++ be32 e.1) ++ (e.2 ++ post.flatMap pack) := by
    rw [hp.data]; simp [pack]
  have hmid := slice_middle (pre.flatMap pack ++ be32 e.1) e.2 (post.flatMap pack)
  have hb : (be32 e.1).length = 4 := rfl
  have hk := hp.size e (by simp)
  rw [List.length_append, hpre, hb, hk, Nat.add_assoc] at hmid
  rw [hdata]
  exact hmid

lemma Packs.cons_of_lt (hp : h.Packs (pre ++ post)) (hlt : keyHistoryEntry * pre.length < h.data.length) :
    ∃ e rest, post = e :: rest := by
  cases post with
  | cons e rest => exact ⟨e, rest, rfl⟩
  | nil =>
    rw [hp.data, length_packs hp.size] at hlt
    simp at hlt

lemma Packs.gcLoop {horizonBE : Bytes} (fuel : Nat) (hp : h.Packs (pre ++ post)) (hfuel : post.length ≤ fuel) :
    ∃ es, (KeyHistory.gcLoop horizonBE fuel h (keyHistoryEntry * pre.length)).Packs es ∧
      es.Perm (pre ++ post.filter fun e => ¬ be32 e.1 < horizonBE) := by
  induction fuel generalizing h pre post with
  | zero =>
    obtain rfl : post = [] := List.eq_nil_of_length_eq_zero (Nat.le_zero.mp hfuel)
    exact ⟨pre ++ [], hp, List.Perm.refl _⟩
  | succ fuel ih =>
    by_cases hlt : keyHistoryEntry * pre.length < h.data.length
    · obtain ⟨e, rest, rfl⟩ := hp.cons_of_lt hlt
      have hrest : rest.length ≤ fuel := Nat.le_of_succ_le_succ hfuel
      by_cases hold : be32 e.1 < horizonBE
      · -- the last record is swapped in and examined next
        obtain ⟨post', hp', hperm⟩ := hp.remove
        obtain ⟨es, hes, hsub⟩ := ih hp' (hperm.length_eq.le.trans hrest)
        refine ⟨es, ?_, hsub.trans ?_⟩
        · simpa only [KeyHistory.gcLoop, if_pos hlt, hp.slice_index, if_pos hold] using hes
        · rw [List.filter_cons_of_neg (by simpa using hold)]
          exact (hperm.filter _).append_left pre
      · have hnext : keyHistoryEntry * pre.length + keyHistoryEntry
            = keyHistoryEntry * (pre ++ [e]).length := by simp [Nat.mul_add]
        have hslice := hp.slice_index
        rw [List.filter_cons_of_pos (by simpa using hold), List.append_cons pre e]
        rw [List.append_cons pre e] at hp
        obtain ⟨es, hes, hsub⟩ := ih hp hrest
        refine ⟨es, ?_, hsub⟩
        simpa only [KeyHistory.gcLoop, if_pos hlt, hslice, if_neg hold, hnext] using hes
    · cases post with
      | nil => exact ⟨pre ++ [], by simpa only [KeyHistory.gcLoop, if_neg hlt] using hp, List.Perm.refl _⟩
      | cons e rest =>
        rw [hp.data, length_packs hp.size, List.length_append, List.length_cons] at hlt
        simp only [keyHistoryEntry] at hlt
        omega

lemma gcLoop_end (horizonBE : Bytes) (fuel : Nat) {i : Nat} (hend : ¬ i < h.data.length) :
    KeyHistory.gcLoop horizonBE fuel h i = h := by
  cases fuel with
  | zero => rfl
  | succ fuel => exact if_neg hend

lemma gcLoop_turn (horizonBE : Bytes) (fuel : Nat) {i : Nat} (hlt : i < h.data.length) :
    KeyHistory.gcLoop horizonBE (fuel + 1) h i
      = if slice h.data i (i + 4) < horizonBE then KeyHistory.gcLoop horizonBE fuel (h.remove i) i
        else KeyHistory.gcLoop horizonBE fuel h (i + keyHistoryEntry) :=
  if_pos hlt

lemma Packs.gcLoop_fuel (horizonBE : Bytes) (fuel : Nat) (hp : h.Packs (pre ++ post))
    (hfuel : post.length ≤ fuel) : KeyHistory.gcLoop horizonBE (fuel + 1) h (keyHistoryEntry * pre.length)
      = KeyHistory.gcLoop horizonBE fuel h (keyHistoryEntry * pre.length) := by
  induction fuel generalizing h pre post with
  | zero =>
    obtain rfl : post = [] := List.eq_nil_of_length_eq_zero (Nat.le_zero.mp hfuel)
    have hlen : ¬ keyHistoryEntry * pre.length < h.data.length := by
      rw [hp.data, length_packs hp.size, List.append_nil]
      exact lt_irrefl _
    rw [gcLoop_end _ _ hlen, gcLoop_end _ _ hlen]
  | succ fuel ih =>
    by_cases hlt : keyHistoryEntry * pre.length < h.data.length
    · obtain ⟨e, rest, rfl⟩ := hp.cons_of_lt hlt
      have hrest : rest.length ≤ fuel := Nat.le_of_succ_le_succ hfuel
      rw [gcLoop_turn _ (fuel + 1) hlt, gcLoop_turn _ fuel hlt]
      split
      · obtain ⟨post', hp', hperm⟩ := hp.remove
        exact ih hp' (hperm.length_eq.le.trans hrest)
      · have hnext : keyHistoryEntry * pre.length + keyHistoryEntry
            = keyHistoryEntry * (pre ++ [e]).length := by simp [Nat.mul_add]
        rw [List.append_cons pre e] at hp
        rw [hnext]
        exact ih hp hrest
    · rw [gcLoop_end _ _ hlt, gcLoop_end _ _ hlt]

lemma Packs.length_le (hp : h.Packs es) : es.length ≤ h.data.length := by
  rw [hp.data, length_packs hp.size]
  exact Nat.le_mul_of_pos_left _ (by decide)

lemma Packs.gc_full (hp : h.Packs es) (currentKey : UInt32) {maxOOO : UInt32}
    (hfull : trimSize maxOOO * keyHistoryEntry ≤ h.data.length) : ∃ es', (h.gc currentKey maxOOO).Packs es' ∧
      es'.Perm (es.filter fun e => currentKey.toNat - maxOOO.toNat ≤ e.1.toNat) := by
  rw [KeyHistory.gc, if_neg (Nat.not_lt.mpr hfull)]
  split
  · rename_i hlt
    have hnat := UInt32.lt_iff_toNat_lt.mp hlt
    refine ⟨es, hp, ?_⟩
    rw [List.filter_eq_self.mpr (fun e _ => by simp; omega)]
  · rename_i hge
    obtain ⟨es', hp', hperm⟩ :=
      Packs.gcLoop h.data.length (show h.Packs ([] ++ es) from hp) hp.length_le
    refine ⟨es', hp', hperm.trans ?_⟩
    rw [List.nil_append]
    refine List.Perm.of_eq (List.filter_congr fun e _ => decide_eq_decide.mpr ?_)
    rw [be32_lt_iff, UInt32.toNat_sub_of_le _ _ (UInt32.not_lt.mp hge), Nat.not_lt]

lemma Packs.gc (hp : h.Packs es) (currentKey maxOOO : UInt32) :
    ∃ es', (h.gc currentKey maxOOO).Packs es' ∧ es'.Subperm es ∧
      ∀ e ∈ es, currentKey.toNat ≤ e.1.toNat + maxOOO.toNat → e ∈ es' := by
  by_cases hfull : trimSize maxOOO * keyHistoryEntry ≤ h.data.length
  · obtain ⟨es', hp', hperm⟩ := hp.gc_full currentKey hfull
    refine ⟨es', hp', hperm.subperm.trans List.filter_sublist.subperm, fun e he hin => ?_⟩
    refine hperm.mem_iff.mpr (List.mem_filter.mpr ⟨he, ?_⟩)
    simp only [decide_eq_true_eq]
    omega
  · rw [KeyHistory.gc, if_pos (Nat.lt_of_not_le hfull)]
    exact ⟨es, hp, List.Subperm.refl _, fun _ he _ => he⟩

lemma Packs.getLoop {wantBE : Bytes} (fuel : Nat) (hp : h.Packs (pre ++ post)) {k : Bytes} {h' : KeyHistory}
    (hget : KeyHistory.getLoop wantBE h fuel (keyHistoryEntry * pre.length) = some (k, h')) :
    ∃ e es, (e :: es).Perm (pre ++ post) ∧ be32 e.1 = wantBE ∧ k = e.2 ∧ h'.Packs es := by
  induction fuel generalizing pre post with
  | zero => cases hget
  | succ fuel ih =>
    rw [KeyHistory.getLoop] at hget
    by_cases hlt : keyHistoryEntry * pre.length < h.data.length
    · rw [if_pos hlt] at hget
      obtain ⟨e, rest, rfl⟩ := hp.cons_of_lt hlt
      rw [hp.slice_index, hp.slice_key] at hget
      by_cases hfound : be32 e.1 = wantBE
      · rw [if_pos hfound] at hget
        cases hget
        obtain ⟨post', hp', hperm⟩ := hp.remove
        have hperm' : (e :: (pre ++ post')).Perm (pre ++ e :: rest) :=
          List.perm_middle.symm.trans ((hperm.cons e).append_left pre)
        exact ⟨e, _, hperm', hfound, rfl, hp'⟩
      · rw [if_neg hfound] at hget
        have hnext : keyHistoryEntry * pre.length + keyHistoryEntry
            = keyHistoryEntry * (pre ++ [e]).length := by simp [Nat.mul_add]
        rw [hnext] at hget
        have happ : pre ++ e :: rest = (pre ++ [e]) ++ rest := by simp
        rw [happ] at hp ⊢
        exact ih hp hget
    · rw [if_neg hlt] at hget
      cases hget

lemma Packs.getLoop_none {wantBE : Bytes} (fuel : Nat) (hp : h.Packs (pre ++ post)) (hfuel : post.length ≤ fuel)
    (hget : KeyHistory.getLoop wantBE h fuel (keyHistoryEntry * pre.length) = none) :
    ∀ e ∈ post, be32 e.1 ≠ wantBE := by
  induction fuel generalizing pre post with
  | zero =>
    rw [List.eq_nil_of_length_eq_zero (Nat.le_zero.mp hfuel)]
    simp
  | succ fuel ih =>
    cases post with
    | nil => simp
    | cons e rest =>
      have hlt : keyHistoryEntry * pre.length < h.data.length := by
        rw [hp.data, length_packs hp.size, List.length_append, List.length_cons]
        simp only [keyHistoryEntry]
        omega
      rw [KeyHistory.getLoop, if_pos hlt, hp.slice_index] at hget
      by_cases hfound : be32 e.1 = wantBE
      · rw [if_pos hfound] at hget
        cases hget
      · have hnext : keyHistoryEntry * pre.length + keyHistoryEntry
            = keyHistoryEntry * (pre ++ [e]).length := by simp [Nat.mul_add]
        rw [if_neg hfound, hnext] at hget
        intro x hx
        rcases List.mem_cons.mp hx with rfl | hx
        · exact hfound
        · exact ih (show h.Packs ((pre ++ [e]) ++ rest) by simpa using hp)
            (by simp only [List.length_cons] at hfuel; omega) hget x hx

end KeyHistory

section Streams
variable [Hash]

open ChainEpochDirection (derive)

def streamNext (seed : Bytes) : Nat → Bytes
  | 0 => seed
  | n + 1 => slice (derive (streamNext seed n) (n + 1).toUInt32) 0 32

def streamKey (seed : Bytes) (n : Nat) : Bytes :=
  slice (derive (streamNext seed (n - 1)) n.toUInt32) 32 64

lemma length_derive (next : Bytes) (ctr : UInt32) : (derive next ctr).length = 64 :=
  hkdfSHA256_length _ _ _ 64 (by norm_num)

@[simp] lemma length_streamKey (seed : Bytes) (n : Nat) : (streamKey seed n).length = 32 := by
  simp [streamKey, slice, length_derive]

lemma length_streamNext {seed : Bytes} (h : seed.length = 32) (n : Nat) : (streamNext seed n).length = 32 := by
  cases n with
  | zero => exact h
  | succ n => simp [streamNext, slice, length_derive]

namespace ChainEpochDirection

/-- The direction satisfies `Q` at its counter and chain key, and every stored record satisfies `K`. -/
structure Keeps (Q K : UInt32 → Bytes → Prop) (d : ChainEpochDirection) : Prop where
  next : Q d.ctr d.next
  prev : ∃ es, d.prev.Packs es ∧ ∀ e ∈ es, K e.1 e.2

/-- One derivation carries `Q` on and yields a key that satisfies `K`. -/
def Derives (Q K : UInt32 → Bytes → Prop) : Prop :=
  ∀ ctr next, ctr.toNat + 1 < 2 ^ 32 → Q ctr next →
    Q (ctr + 1) (slice (derive next (ctr + 1)) 0 32) ∧ K (ctr + 1) (slice (derive next (ctr + 1)) 32 64)

omit [Hash] in
lemma toNat_succ {v : UInt32} (h : v.toNat + 1 < 2 ^ 32) : (v + 1).toNat = v.toNat + 1 := by
  simp [UInt32.toNat_add]
  omega

lemma length_derived_key (next : Bytes) (ctr : UInt32) : (slice (derive next ctr) 32 64).length = 32 := by
  simp [slice, length_derive]

lemma length_derived_next (next : Bytes) (ctr : UInt32) : (slice (derive next ctr) 0 32).length = 32 := by
  simp [slice, length_derive]

section Keeps
variable {Q K : UInt32 → Bytes → Prop} (hder : Derives Q K)
include hder

variable {d : ChainEpochDirection} {idx : UInt32}

lemma skipTo_keeps (idx maxOOO : UInt32) (fuel : Nat) (hd : d.Keeps Q K) (hlt : d.ctr.toNat < idx.toNat)
    (hfuel : idx.toNat ≤ d.ctr.toNat + fuel) : (skipTo idx maxOOO fuel d).Keeps Q K ∧
      (skipTo idx maxOOO fuel d).ctr.toNat + 1 = idx.toNat := by
  induction fuel generalizing d with
  | zero => omega
  | succ fuel ih =>
    have hidx := idx.toNat_lt
    have hs : (d.ctr + 1).toNat = d.ctr.toNat + 1 := toNat_succ (by omega)
    rw [skipTo]
    by_cases hmore : idx > d.ctr + 1
    · have hm : d.ctr.toNat + 1 < idx.toNat := by
        rw [← hs]; exact UInt32.lt_iff_toNat_lt.mp hmore
      obtain ⟨hq, hk⟩ := hder d.ctr d.next (by omega) hd.next
      have hlt' : (d.ctr + 1).toNat < idx.toNat := by rw [hs]; exact hm
      have hfuel' : idx.toNat ≤ (d.ctr + 1).toNat + fuel := by rw [hs]; omega
      rw [if_pos hmore]
      by_cases hkeep : d.nextKeyInternal.2.ctr + maxOOO ≥ idx
      · simp only [if_pos hkeep]
        obtain ⟨es, hp, hkeys⟩ := hd.prev
        refine ih ⟨hq, es ++ [(d.ctr + 1, slice (derive d.next (d.ctr + 1)) 32 64)],
          hp.add _ (length_derived_key _ _), ?_⟩ hlt' hfuel'
        intro e he
        rcases List.mem_append.mp he with he | he
        · exact hkeys e he
        · rw [List.mem_singleton.mp he]
          exact hk
      · simp only [if_neg hkeep]
        exact ih ⟨hq, hd.prev⟩ hlt' hfuel'
    · have hm : ¬ d.ctr.toNat + 1 < idx.toNat := by
        rw [← hs]; exact mt UInt32.lt_iff_toNat_lt.mpr hmore
      rw [if_neg hmore]
      exact ⟨hd, by omega⟩

lemma advanceTo_inv (hd : d.Keeps Q K) (maxOOO : UInt32) (hlt : d.ctr.toNat < idx.toNat) :
    ∃ d1 : ChainEpochDirection, d1.Keeps Q K ∧ d1.ctr + 1 = idx ∧ d1.ctr.toNat + 1 = idx.toNat ∧
      d.advanceTo idx maxOOO = (slice (derive d1.next idx) 32 64,
        ⟨idx, slice (derive d1.next idx) 0 32, d1.prev.gc d1.ctr maxOOO⟩) := by
  have hidx := idx.toNat_lt
  let d0 := if idx > d.ctr + maxOOO then { d with prev := d.prev.clear } else d
  have hd0 : d0.Keeps Q K ∧ d0.ctr = d.ctr := by
    change (ite _ _ _ : ChainEpochDirection).Keeps Q K ∧ (ite _ _ _ : ChainEpochDirection).ctr = _
    split
    · exact ⟨⟨hd.next, [], ⟨rfl, by simp⟩, by simp⟩, rfl⟩
    · exact ⟨hd, rfl⟩
  have hsub : (idx - d0.ctr).toNat = idx.toNat - d.ctr.toNat := by
    rw [hd0.2]
    exact UInt32.toNat_sub_of_le _ _ (UInt32.le_iff_toNat_le.mpr hlt.le)
  obtain ⟨hd1, hctr1⟩ := skipTo_keeps hder idx maxOOO (idx - d0.ctr).toNat hd0.1
    (by rw [hd0.2]; exact hlt) (by rw [hsub, hd0.2]; omega)
  let d1 := skipTo idx maxOOO (idx - d0.ctr).toNat d0
  have hlast : d1.ctr + 1 = idx := by
    apply UInt32.toNat_inj.mp
    rw [toNat_succ (by rw [hctr1]; exact hidx), hctr1]
  have heq : d.advanceTo idx maxOOO
      = (slice (derive d1.next (d1.ctr + 1)) 32 64,
         { d1 with ctr := d1.ctr + 1, next := slice (derive d1.next (d1.ctr + 1)) 0 32,
                   prev := d1.prev.gc d1.ctr maxOOO }) := rfl
  rw [hlast] at heq
  exact ⟨d1, hd1, hlast, hctr1, heq⟩

lemma advanceTo_keeps (hd : d.Keeps Q K) (maxOOO : UInt32) (hlt : d.ctr.toNat < idx.toNat) :
    K idx (d.advanceTo idx maxOOO).1 ∧ (d.advanceTo idx maxOOO).2.Keeps Q K ∧
      (d.advanceTo idx maxOOO).2.ctr = idx := by
  have hidx := idx.toNat_lt
  obtain ⟨d1, hd1, hlast, hctr1, heq⟩ := advanceTo_inv hder hd maxOOO hlt
  obtain ⟨es, hp, hkeys⟩ := hd1.prev
  obtain ⟨es', hp', hsub', _⟩ := hp.gc d1.ctr maxOOO
  obtain ⟨hq, hk⟩ := hder d1.ctr d1.next (by rw [hctr1]; exact hidx) hd1.next
  rw [hlast] at hq hk
  rw [heq]
  exact ⟨hk, ⟨hq, es', hp', fun e he => hkeys e (hsub'.subset he)⟩, rfl⟩

lemma key_keeps (hd : d.Keeps Q K) {p : ChainParams} {k : Bytes} {d' : ChainEpochDirection}
    (h : d.key idx p = .ok (k, d')) : K idx k ∧ d'.Keeps Q K ∧ d'.ctr.toNat = max d.ctr.toNat idx.toNat := by
  simp only [key] at h
  by_cases hahead : idx > d.ctr
  · rw [if_pos hahead] at h
    have hlt : d.ctr.toNat < idx.toNat := UInt32.lt_iff_toNat_lt.mp hahead
    split at h
    · cases h
    · obtain ⟨hk, hd', hctr⟩ := advanceTo_keeps hder hd (resolveMaxOOO (some p)) hlt
      rw [Except.ok.inj h] at hk hd' hctr
      exact ⟨hk, hd', by rw [hctr, max_eq_right hlt.le]⟩
  · rw [if_neg hahead] at h
    by_cases hback : idx < d.ctr
    · rw [if_pos hback, KeyHistory.get] at h
      split at h
      · cases h
      · cases hloop : KeyHistory.getLoop (be32 idx) d.prev d.prev.data.length 0 with
        | none => rw [hloop] at h; cases h
        | some r =>
          obtain ⟨k', h'⟩ := r
          rw [hloop] at h
          cases h
          obtain ⟨es, hp, hkeys⟩ := hd.prev
          obtain ⟨e, es', hperm, hidx, hk, hp'⟩ :=
            KeyHistory.Packs.getLoop d.prev.data.length (show d.prev.Packs ([] ++ es) from hp) hloop
          refine ⟨?_, ⟨hd.next, es', hp', fun x hx => hkeys x (hperm.subset (.tail _ hx))⟩, ?_⟩
          · rw [hk, ← be32_injective hidx]
            exact hkeys e (hperm.subset (.head _))
          · exact (max_eq_left (UInt32.lt_iff_toNat_lt.mp hback).le).symm
    · rw [if_neg hback] at h
      cases h

lemma key_ahead {d : ChainEpochDirection} (hd : d.Keeps Q K) {idx : UInt32} {p : ChainParams}
    (hlt : d.ctr.toNat < idx.toNat) (hjump : idx.toNat - d.ctr.toNat ≤ (resolveMaxJump (some p)).toNat) :
    ∃ k d', d.key idx p = .ok (k, d') ∧ K idx k ∧ d'.Keeps Q K ∧ d'.ctr = idx := by
  obtain ⟨hk, hd', hctr⟩ := advanceTo_keeps hder hd (resolveMaxOOO (some p)) hlt
  have hsub : (idx - d.ctr).toNat = idx.toNat - d.ctr.toNat :=
    UInt32.toNat_sub_of_le _ _ (UInt32.le_iff_toNat_le.mpr hlt.le)
  have hnot : ¬ idx - d.ctr > resolveMaxJump (some p) := by
    intro hgt
    have := UInt32.lt_iff_toNat_lt.mp hgt
    omega
  refine ⟨_, _, ?_, hk, hd', hctr⟩
  simp only [key, if_pos (UInt32.lt_iff_toNat_lt.mpr hlt : idx > d.ctr), if_neg hnot]

end Keeps

def Sized : ChainEpochDirection → Prop :=
  Keeps (fun _ next => next.length = 32) (fun _ k => k.length = 32)

lemma derives_sized : Derives (fun _ next => next.length = 32) (fun _ k => k.length = 32) :=
  fun _ _ _ _ => ⟨length_derived_next _ _, length_derived_key _ _⟩

/-- The direction is a state of the stream of `seed`: it holds the chain key of its counter, and every
stored record is the stream's key of its index. -/
def Tracks (seed : Bytes) : ChainEpochDirection → Prop :=
  Keeps (fun ctr next => next = streamNext seed ctr.toNat) (fun i k => k = streamKey seed i.toNat)

lemma derives_tracks (seed : Bytes) : Derives (fun ctr next => next = streamNext seed ctr.toNat)
      (fun i k => k = streamKey seed i.toNat) := by
  intro ctr next hc hn
  have hctr : (ctr.toNat + 1).toUInt32 = ctr + 1 := by
    apply UInt32.toNat_inj.mp
    rw [toNat_succ hc]
    simp
    omega
  simp only [toNat_succ hc, streamKey, streamNext, Nat.add_sub_cancel, hctr, hn, and_self]

lemma new_tracks (seed : Bytes) : (new seed).Tracks seed :=
  ⟨rfl, [], ⟨rfl, by simp⟩, by simp⟩

omit [Hash] in
lemma new_sized {seed : Bytes} (h : seed.length = 32) : (new seed).Sized :=
  ⟨h, [], ⟨rfl, by simp⟩, by simp⟩

lemma nextKey_tracks {seed : Bytes} {d : ChainEpochDirection} (ht : d.Tracks seed)
    (hc : d.ctr.toNat + 1 < 2 ^ 32) :
    d.nextKey.1 = (d.ctr + 1, streamKey seed (d.ctr.toNat + 1)) ∧ d.nextKey.2.Tracks seed ∧
      d.nextKey.2.ctr = d.ctr + 1 := by
  obtain ⟨hq, hk⟩ := derives_tracks seed d.ctr d.next hc ht.next
  rw [toNat_succ hc] at hk
  exact ⟨Prod.ext rfl hk, ⟨hq, ht.prev⟩, rfl⟩

end ChainEpochDirection

end Streams

end LibSignal.Spqr
