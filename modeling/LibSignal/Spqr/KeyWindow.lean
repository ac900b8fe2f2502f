import LibSignal.Spqr.KeyStream

/-!
# The receive window of one direction

`KeyCalls` is a run of `key` calls on a fresh direction, with the indices returned so far.
-/

namespace LibSignal.Spqr
open Chunked Crypto

def largest (used : List Nat) : Nat := used.foldr max 0

lemma le_largest {used : List Nat} {i : Nat} (h : i ∈ used) : i ≤ largest used := by
  induction used with
  | nil => cases h
  | cons a used ih =>
    rcases List.mem_cons.mp h with rfl | h
    · exact le_max_left _ _
    · exact (ih h).trans (le_max_right _ _)

lemma largest_cons (i : Nat) (used : List Nat) : largest (i :: used) = max i (largest used) := rfl

lemma largest_mem (used : List Nat) : largest used = 0 ∨ largest used ∈ used := by
  induction used with
  | nil => exact .inl rfl
  | cons a used ih =>
    rw [largest_cons]
    rcases le_total a (largest used) with hle | hle
    · rw [max_eq_right hle]
      exact ih.imp_right (List.mem_cons_of_mem a)
    · rw [max_eq_left hle]
      exact .inr List.mem_cons_self

/-- Neither the counter nor the index overflows when the retention window is added to it. -/
structure InRange (p : ChainParams) (used : List Nat) (idx : UInt32) : Prop where
  ctr : largest used + (resolveMaxOOO (some p)).toNat < 2 ^ 32
  idx : idx.toNat + (resolveMaxOOO (some p)).toNat < 2 ^ 32

section
variable [Hash]

/-- A run of calls on a fresh direction. A call that fails leaves the direction as it is. -/
inductive KeyCalls (p : ChainParams) (seed : Bytes) : List Nat → ChainEpochDirection → Prop
  | fresh : KeyCalls p seed [] (.new seed)
  | hit {used d idx k d'} (h : KeyCalls p seed used d) (hin : InRange p used idx)
      (hkey : d.key idx p = .ok (k, d')) : KeyCalls p seed (idx.toNat :: used) d'
  | miss {used d idx e} (h : KeyCalls p seed used d) (hin : InRange p used idx)
      (hkey : d.key idx p = .error e) : KeyCalls p seed used d

namespace KeyHistory

/-- What the records `es` are when the keys up to `c` were derived and `used` were returned: keys of the
stream, no two of one index, none of them returned, and among them every key that was not returned and is
retained at index `top`. -/
structure Retains (seed : Bytes) (maxOOO : Nat) (used : List Nat) (top c : Nat)
    (es : List (UInt32 × Bytes)) : Prop where
  key : ∀ e ∈ es, e.2 = streamKey seed e.1.toNat
  nodup : (es.map Prod.fst).Nodup
  pos : ∀ e ∈ es, 1 ≤ e.1.toNat
  le : ∀ e ∈ es, e.1.toNat ≤ c
  unused : ∀ e ∈ es, e.1.toNat ∉ used
  all : ∀ i, 1 ≤ i → i ≤ c → top ≤ i + maxOOO → i ∉ used → ∃ e ∈ es, e.1.toNat = i

namespace Retains
variable {seed : Bytes} {maxOOO : Nat} {used : List Nat} {top c : Nat} {es es' : List (UInt32 × Bytes)}

lemma advance (h : Retains seed maxOOO used top c es) {top' : Nat} (hle : top ≤ top') :
    Retains seed maxOOO used top' c es :=
  { h with all := fun i h1 h2 h3 => h.all i h1 h2 (hle.trans h3) }

lemma clear (hlt : c + maxOOO < top) : Retains seed maxOOO used top c [] :=
  ⟨by simp, by simp, by simp, by simp, by simp, fun i _ h2 h3 _ => by omega⟩

lemma drop (h : Retains seed maxOOO used top c es) (hsub : es'.Subperm es)
    (hkeep : ∀ e ∈ es, top ≤ e.1.toNat + maxOOO → e ∈ es') : Retains seed maxOOO used top c es' := by
  refine ⟨fun e he => h.key e (hsub.subset he), ?_, fun e he => h.pos e (hsub.subset he),
    fun e he => h.le e (hsub.subset he), fun e he => h.unused e (hsub.subset he), ?_⟩
  · obtain ⟨l, hperm, hsublist⟩ := hsub
    exact (hperm.map Prod.fst).nodup_iff.mp ((hsublist.map Prod.fst).nodup h.nodup)
  · intro i h1 h2 h3 h4
    obtain ⟨e, he, rfl⟩ := h.all i h1 h2 h3 h4
    exact ⟨e, hkeep e he h3, rfl⟩

lemma skip (h : Retains seed maxOOO used top c es) (hout : c + 1 + maxOOO < top) :
    Retains seed maxOOO used top (c + 1) es := by
  refine { h with le := fun e he => (h.le e he).trans (Nat.le_succ c), all := fun i h1 h2 h3 => ?_ }
  exact h.all i h1 (by omega) h3

lemma keep (h : Retains seed maxOOO used top c es) {idx : UInt32} (hidx : idx.toNat = c + 1)
    (hnew : ∀ i ∈ used, i ≤ c) :
    Retains seed maxOOO used top (c + 1) (es ++ [(idx, streamKey seed idx.toNat)]) := by
  have hmem : ∀ {e}, e ∈ es ++ [(idx, streamKey seed idx.toNat)] →
      e ∈ es ∨ e = (idx, streamKey seed idx.toNat) := by
    intro e he
    simpa using he
  refine ⟨?_, ?_, ?_, ?_, ?_, ?_⟩
  · intro e he
    rcases hmem he with he | rfl
    · exact h.key e he
    · rfl
  · rw [List.map_append, List.nodup_append]
    refine ⟨h.nodup, by simp, ?_⟩
    intro a ha b hb hab
    obtain ⟨e, he, rfl⟩ := List.mem_map.mp ha
    rw [List.map_singleton, List.mem_singleton] at hb
    have hle := h.le e he
    rw [hab, hb] at hle
    dsimp only at hle
    omega
  · intro e he
    rcases hmem he with he | rfl
    · exact h.pos e he
    · dsimp only
      omega
  · intro e he
    rcases hmem he with he | rfl
    · exact (h.le e he).trans (Nat.le_succ c)
    · exact hidx.le
  · intro e he
    rcases hmem he with he | rfl
    · exact h.unused e he
    · intro hu
      have := hnew _ hu
      dsimp only at this
      omega
  · intro i h1 h2 h3 h4
    rcases Nat.lt_or_ge c i with hlt | hge
    · exact ⟨_, List.mem_append_right _ (List.mem_singleton.mpr rfl), by dsimp only; omega⟩
    · obtain ⟨e, he, rfl⟩ := h.all i h1 hge h3 h4
      exact ⟨e, List.mem_append_left _ he, rfl⟩

lemma deliver (h : Retains seed maxOOO used top c es) (htop : top = c + 1) :
    Retains seed maxOOO (top :: used) top (c + 1) es := by
  refine { h with le := fun e he => (h.le e he).trans (Nat.le_succ c), unused := ?_, all := ?_ }
  · intro e he hu
    rcases List.mem_cons.mp hu with heq | hu
    · have := h.le e he
      omega
    · exact h.unused e he hu
  · intro i h1 h2 h3 h4
    rw [List.mem_cons, not_or] at h4
    exact h.all i h1 (by omega) h3 h4.2

lemma take {e : UInt32 × Bytes} (h : Retains seed maxOOO used top c es) (hperm : (e :: es').Perm es) :
    Retains seed maxOOO (e.1.toNat :: used) top c es' := by
  have hnodup : (e.1 :: es'.map Prod.fst).Nodup := (hperm.map Prod.fst).nodup_iff.mpr h.nodup
  have hsub : ∀ x ∈ es', x ∈ es := fun x hx => hperm.subset (.tail _ hx)
  refine ⟨fun x hx => h.key x (hsub x hx), hnodup.tail, fun x hx => h.pos x (hsub x hx),
    fun x hx => h.le x (hsub x hx), ?_, ?_⟩
  · intro x hx hu
    rcases List.mem_cons.mp hu with heq | hu
    · have hne := (List.nodup_cons.mp hnodup).1
      rw [← UInt32.toNat_inj.mp heq] at hne
      exact hne (List.mem_map.mpr ⟨x, hx, rfl⟩)
    · exact h.unused x (hsub x hx) hu
  · intro i h1 h2 h3 h4
    rw [List.mem_cons, not_or] at h4
    obtain ⟨x, hx, rfl⟩ := h.all i h1 h2 h3 h4.2
    rcases List.mem_cons.mp (hperm.mem_iff.mpr hx) with rfl | hx
    · exact absurd rfl h4.1
    · exact ⟨x, hx, rfl⟩

end Retains

end KeyHistory

namespace ChainEpochDirection
open KeyHistory (Retains)
variable {p : ChainParams} {seed : Bytes} {used : List Nat} {d d' : ChainEpochDirection} {idx : UInt32}

/-- The direction is at its counter of the stream of `seed`, and its history retains what is needed at index
`top`. -/
structure Windowed (seed : Bytes) (maxOOO : UInt32) (used : List Nat) (top : Nat)
    (d : ChainEpochDirection) : Prop where
  next : d.next = streamNext seed d.ctr.toNat
  prev : ∃ es, d.prev.Packs es ∧ Retains seed maxOOO.toNat used top d.ctr.toNat es

variable {maxOOO : UInt32}

lemma Windowed.skip (h : Windowed seed maxOOO used idx.toNat d) (hused : ∀ i ∈ used, i ≤ d.ctr.toNat)
    (hlt : d.ctr.toNat + 1 < idx.toNat) (hsmall : idx.toNat + maxOOO.toNat < 2 ^ 32) :
    Windowed seed maxOOO used idx.toNat
      (if d.nextKeyInternal.2.ctr + maxOOO ≥ idx
        then { d.nextKeyInternal.2 with
          prev := d.nextKeyInternal.2.prev.add d.nextKeyInternal.1.1 d.nextKeyInternal.1.2 }
        else d.nextKeyInternal.2) := by
  have hctr : (d.ctr + 1).toNat = d.ctr.toNat + 1 := toNat_succ (by omega)
  obtain ⟨hnext, hkey⟩ := derives_tracks seed d.ctr d.next (by omega) h.next
  have hsum : (d.ctr + 1 + maxOOO).toNat = d.ctr.toNat + 1 + maxOOO.toNat := by
    rw [UInt32.toNat_add, hctr]
    exact Nat.mod_eq_of_lt (by omega)
  obtain ⟨es, hp, hr⟩ := h.prev
  split
  · have hr' := hr.keep hctr hused
    rw [← hctr, ← hkey] at hr'
    exact ⟨hnext, _, hp.add _ (length_derived_key _ _), hr'⟩
  · rename_i hout
    have hout' : ¬ idx.toNat ≤ (d.ctr + 1 + maxOOO).toNat := mt UInt32.le_iff_toNat_le.mpr hout
    have hr' := hr.skip (by omega)
    rw [← hctr] at hr'
    exact ⟨hnext, es, hp, hr'⟩

lemma Windowed.skipTo (fuel : Nat) (h : Windowed seed maxOOO used idx.toNat d)
    (hused : ∀ i ∈ used, i ≤ d.ctr.toNat) (hlt : d.ctr.toNat < idx.toNat)
    (hfuel : idx.toNat ≤ d.ctr.toNat + fuel) (hsmall : idx.toNat + maxOOO.toNat < 2 ^ 32) :
    Windowed seed maxOOO used idx.toNat (d.skipTo idx maxOOO fuel) ∧
      (d.skipTo idx maxOOO fuel).ctr.toNat + 1 = idx.toNat := by
  induction fuel generalizing d with
  | zero => omega
  | succ fuel ih =>
    have hctr : (d.ctr + 1).toNat = d.ctr.toNat + 1 := toNat_succ (by omega)
    rw [ChainEpochDirection.skipTo]
    by_cases hmore : idx > d.ctr + 1
    · have hm : d.ctr.toNat + 1 < idx.toNat := by
        rw [← hctr]
        exact UInt32.lt_iff_toNat_lt.mp hmore
      rw [if_pos hmore]
      have hstep := h.skip hused hm hsmall
      have hctr' : (if d.nextKeyInternal.2.ctr + maxOOO ≥ idx
          then { d.nextKeyInternal.2 with
            prev := d.nextKeyInternal.2.prev.add d.nextKeyInternal.1.1 d.nextKeyInternal.1.2 }
          else d.nextKeyInternal.2).ctr.toNat = d.ctr.toNat + 1 := by
        split <;> exact hctr
      refine ih hstep (fun i hi => ?_) ?_ ?_
      · rw [hctr']
        exact (hused i hi).trans (Nat.le_succ _)
      · rw [hctr']
        exact hm
      · rw [hctr']
        omega
    · have hm : ¬ d.ctr.toNat + 1 < idx.toNat := by
        rw [← hctr]
        exact mt UInt32.lt_iff_toNat_lt.mpr hmore
      rw [if_neg hmore]
      exact ⟨h, by omega⟩

lemma Windowed.advanceTo (h : Windowed seed maxOOO used d.ctr.toNat d) (hused : ∀ i ∈ used, i ≤ d.ctr.toNat)
    (hlt : d.ctr.toNat < idx.toNat) (hctr : d.ctr.toNat + maxOOO.toNat < 2 ^ 32)
    (hsmall : idx.toNat + maxOOO.toNat < 2 ^ 32) :
    Windowed seed maxOOO (idx.toNat :: used) idx.toNat (d.advanceTo idx maxOOO).2 := by
  have hidx := idx.toNat_lt
  have hsum : (d.ctr + maxOOO).toNat = d.ctr.toNat + maxOOO.toNat := by
    rw [UInt32.toNat_add]
    exact Nat.mod_eq_of_lt hctr
  let d0 := if idx > d.ctr + maxOOO then { d with prev := d.prev.clear } else d
  have hctr0 : d0.ctr = d.ctr := by
    change (ite _ _ _ : ChainEpochDirection).ctr = _
    split <;> rfl
  -- what is cleared is before the window
  have h₀ : Windowed seed maxOOO used idx.toNat d0 := by
    change Windowed seed maxOOO used idx.toNat (ite _ _ _)
    split
    · rename_i hfar
      have hfar' := UInt32.lt_iff_toNat_lt.mp hfar
      exact ⟨h.next, [], ⟨rfl, by simp⟩, Retains.clear (by rw [← hsum]; exact hfar')⟩
    · obtain ⟨es, hp, hr⟩ := h.prev
      exact ⟨h.next, es, hp, hr.advance hlt.le⟩
  have hsub : (idx - d0.ctr).toNat = idx.toNat - d.ctr.toNat := by
    rw [hctr0]
    exact UInt32.toNat_sub_of_le _ _ (UInt32.le_iff_toNat_le.mpr hlt.le)
  let d1 := d0.skipTo idx maxOOO (idx - d0.ctr).toNat
  obtain ⟨h₁, hctr1⟩ : Windowed seed maxOOO used idx.toNat d1 ∧ d1.ctr.toNat + 1 = idx.toNat :=
    h₀.skipTo (idx - d0.ctr).toNat (by rw [hctr0]; exact hused) (by rw [hctr0]; exact hlt)
      (by rw [hsub, hctr0]; omega) hsmall
  have hlast : d1.ctr + 1 = idx := by
    apply UInt32.toNat_inj.mp
    rw [toNat_succ (by rw [hctr1]; exact hidx), hctr1]
  obtain ⟨hnext, _⟩ := derives_tracks seed d1.ctr d1.next (by rw [hctr1]; exact hidx) h₁.next
  obtain ⟨es, hp, hr⟩ := h₁.prev
  obtain ⟨es', hp', hperm, hkeep⟩ := hp.gc d1.ctr maxOOO
  have hr' := (hr.drop hperm fun e he hin => hkeep e he (by omega)).deliver hctr1.symm
  rw [hctr1] at hr'
  have heq : (d.advanceTo idx maxOOO).2
      = { d1 with ctr := d1.ctr + 1, next := slice (derive d1.next (d1.ctr + 1)) 0 32,
                  prev := d1.prev.gc d1.ctr maxOOO } := rfl
  rw [heq, hlast]
  rw [hlast] at hnext
  exact ⟨hnext, es', hp', hr'⟩

structure Rests (p : ChainParams) (seed : Bytes) (used : List Nat) (d : ChainEpochDirection) : Prop where
  ctr : d.ctr.toNat = largest used
  windowed : Windowed seed (resolveMaxOOO (some p)) used d.ctr.toNat d

lemma Rests.tracks (h : Rests p seed used d) : d.Tracks seed := by
  obtain ⟨es, hp, hr⟩ := h.windowed.prev
  exact ⟨h.windowed.next, es, hp, hr.key⟩

lemma Rests.used_le (h : Rests p seed used d) : ∀ i ∈ used, i ≤ d.ctr.toNat := by
  intro i hi
  rw [h.ctr]
  exact le_largest hi

lemma Rests.get (h : Rests p seed used d) (hlt : idx.toNat < d.ctr.toNat)
    (hwin : d.ctr.toNat ≤ idx.toNat + (resolveMaxOOO (some p)).toNat)
    (hsmall : idx.toNat + (resolveMaxOOO (some p)).toNat < 2 ^ 32) : (1 ≤ idx.toNat ∧ idx.toNat ∉ used ∧
      ∃ d', d.key idx p = .ok (streamKey seed idx.toNat, d') ∧ Rests p seed (idx.toNat :: used) d') ∨
    ((idx.toNat = 0 ∨ idx.toNat ∈ used) ∧ d.key idx p = .error (.keyAlreadyRequested idx)) := by
  have hnot : ¬ idx > d.ctr := fun hgt => absurd (UInt32.lt_iff_toNat_lt.mp hgt) (by omega)
  have hback : idx < d.ctr := UInt32.lt_iff_toNat_lt.mpr hlt
  have hsum : (idx + resolveMaxOOO (some p)).toNat = idx.toNat + (resolveMaxOOO (some p)).toNat := by
    rw [UInt32.toNat_add]
    exact Nat.mod_eq_of_lt hsmall
  have hin : ¬ idx + resolveMaxOOO (some p) < d.ctr :=
    fun hold => absurd (UInt32.lt_iff_toNat_lt.mp hold) (by omega)
  obtain ⟨es, hp, hr⟩ := h.windowed.prev
  simp only [key, if_neg hnot, if_pos hback, KeyHistory.get, if_neg hin]
  cases hloop : KeyHistory.getLoop (be32 idx) d.prev d.prev.data.length 0 with
  | none =>
    right
    refine ⟨?_, rfl⟩
    have hnone := KeyHistory.Packs.getLoop_none d.prev.data.length (show d.prev.Packs ([] ++ es) from hp)
      (by
        rw [hp.data, KeyHistory.length_packs hp.size]
        exact Nat.le_mul_of_pos_left _ (by decide)) hloop
    by_contra hnew
    rw [not_or] at hnew
    obtain ⟨e, he, heq⟩ := hr.all idx.toNat (by omega) hlt.le hwin hnew.2
    exact hnone e he (by rw [UInt32.toNat_inj.mp heq])
  | some r =>
    left
    obtain ⟨k, prev'⟩ := r
    obtain ⟨e, es', hperm, hidx, rfl, hp'⟩ :=
      KeyHistory.Packs.getLoop d.prev.data.length (show d.prev.Packs ([] ++ es) from hp) hloop
    have he : e ∈ es := hperm.subset (.head _)
    obtain rfl : e.1 = idx := be32_injective hidx
    refine ⟨hr.pos e he, hr.unused e he, { d with prev := prev' }, ?_, ?_, h.windowed.next, es', hp',
      hr.take hperm⟩
    · rw [← hr.key e he]
      rfl
    · rw [largest_cons, ← h.ctr]
      exact (max_eq_right hlt.le).symm

lemma Rests.ahead (h : Rests p seed used d) (hin : InRange p used idx) (hlt : d.ctr.toNat < idx.toNat)
    (hjump : idx.toNat ≤ d.ctr.toNat + (resolveMaxJump (some p)).toNat) :
    ∃ d', d.key idx p = .ok (streamKey seed idx.toNat, d') ∧ Rests p seed (idx.toNat :: used) d' := by
  obtain ⟨k, d', hkey, hk, _, hctr⟩ := key_ahead (derives_tracks seed) h.tracks hlt
    (show _ ≤ (resolveMaxJump (some p)).toNat by omega)
  obtain rfl : k = streamKey seed idx.toNat := hk
  refine ⟨d', hkey, ?_, ?_⟩
  · rw [hctr, largest_cons, ← h.ctr]
    exact (max_eq_left hlt.le).symm
  · have hd' : d' = (d.advanceTo idx (resolveMaxOOO (some p))).2 := by
      simp only [key, if_pos (UInt32.lt_iff_toNat_lt.mpr hlt : idx > d.ctr)] at hkey
      split at hkey
      · cases hkey
      · rw [Except.ok.inj hkey]
    rw [hctr, hd']
    exact h.windowed.advanceTo h.used_le hlt (by rw [h.ctr]; exact hin.ctr) hin.idx

lemma Rests.answer (h : Rests p seed used d) (hin : InRange p used idx) :
    (largest used + (resolveMaxJump (some p)).toNat < idx.toNat ∧ d.key idx p = .error (.keyJump d.ctr idx)) ∨
    (idx.toNat + (resolveMaxOOO (some p)).toNat < largest used ∧ d.key idx p = .error (.keyTrimmed idx)) ∨
    (largest used ≤ idx.toNat + (resolveMaxOOO (some p)).toNat ∧
      idx.toNat ≤ largest used + (resolveMaxJump (some p)).toNat ∧ ((1 ≤ idx.toNat ∧ idx.toNat ∉ used ∧
        ∃ d', d.key idx p = .ok (streamKey seed idx.toNat, d') ∧ Rests p seed (idx.toNat :: used) d') ∨
      ((idx.toNat = 0 ∨ idx.toNat ∈ used) ∧ d.key idx p = .error (.keyAlreadyRequested idx)))) := by
  rw [← h.ctr]
  rcases Nat.lt_trichotomy d.ctr.toNat idx.toNat with hlt | heq | hgt
  · have hsub : (idx - d.ctr).toNat = idx.toNat - d.ctr.toNat :=
      UInt32.toNat_sub_of_le _ _ (UInt32.le_iff_toNat_le.mpr hlt.le)
    by_cases hjump : idx.toNat ≤ d.ctr.toNat + (resolveMaxJump (some p)).toNat
    · refine .inr (.inr ⟨by omega, hjump, .inl ⟨by omega, ?_, h.ahead hin hlt hjump⟩⟩)
      intro hu
      have := h.used_le _ hu
      omega
    · refine .inl ⟨by omega, ?_⟩
      have hfar : idx - d.ctr > resolveMaxJump (some p) := UInt32.lt_iff_toNat_lt.mpr (by omega)
      simp only [key, if_pos (UInt32.lt_iff_toNat_lt.mpr hlt : idx > d.ctr), if_pos hfar]
  · obtain rfl : d.ctr = idx := UInt32.toNat_inj.mp heq
    refine .inr (.inr ⟨Nat.le_add_right _ _, Nat.le_add_right _ _, .inr ⟨?_, ?_⟩⟩)
    · rw [h.ctr]
      exact largest_mem used
    · simp only [key, if_neg (UInt32.lt_irrefl d.ctr)]
  · by_cases hold : idx.toNat + (resolveMaxOOO (some p)).toNat < d.ctr.toNat
    · refine .inr (.inl ⟨hold, ?_⟩)
      have hsum : (idx + resolveMaxOOO (some p)).toNat = idx.toNat + (resolveMaxOOO (some p)).toNat := by
        rw [UInt32.toNat_add]
        exact Nat.mod_eq_of_lt hin.idx
      have hnot : ¬ idx > d.ctr := fun h => absurd (UInt32.lt_iff_toNat_lt.mp h) (by omega)
      have hold' : idx + resolveMaxOOO (some p) < d.ctr := UInt32.lt_iff_toNat_lt.mpr (by omega)
      simp only [key, if_neg hnot, if_pos (UInt32.lt_iff_toNat_lt.mpr hgt : idx < d.ctr), KeyHistory.get,
        if_pos hold']
      rfl
    · exact .inr (.inr ⟨by omega, by omega, h.get hgt (by omega) hin.idx⟩)

end ChainEpochDirection

lemma KeyCalls.rests {p : ChainParams} {seed : Bytes} {used : List Nat} {d : ChainEpochDirection}
    (h : KeyCalls p seed used d) : d.Rests p seed used := by
  induction h with
  | fresh => exact ⟨rfl, rfl, [], ⟨rfl, by simp⟩, by simp, by simp, by simp, by simp, by simp,
      fun i h1 h2 => by simp [ChainEpochDirection.new] at h2; omega⟩
  | miss _ _ _ ih => exact ih
  | hit _ hin hkey ih =>
    rcases ih.answer hin with ⟨_, he⟩ | ⟨_, he⟩ | ⟨_, _, ⟨_, _, d', he, hr⟩ | ⟨_, he⟩⟩
    · rw [hkey] at he
      cases he
    · rw [hkey] at he
      cases he
    · rw [hkey] at he
      cases he
      exact hr
    · rw [hkey] at he
      cases he

/-- The receive window is exact: after any calls on a fresh direction, the next call returns the key of its
index exactly when this is not 0, was not returned before, and lies in the window from the retention limit
behind the largest index returned to the jump limit ahead of it; and the error says which of these fails. -/
theorem receive_window_exact {p : ChainParams} {seed : Bytes} {used : List Nat} {d : ChainEpochDirection}
    (h : KeyCalls p seed used d) {idx : UInt32} (hin : InRange p used idx) :
    ((∃ k d', d.key idx p = .ok (k, d')) ↔ 1 ≤ idx.toNat ∧ idx.toNat ∉ used ∧
        largest used ≤ idx.toNat + (resolveMaxOOO (some p)).toNat ∧
        idx.toNat ≤ largest used + (resolveMaxJump (some p)).toNat) ∧
    (∀ k d', d.key idx p = .ok (k, d') → k = streamKey seed idx.toNat) ∧
    (largest used + (resolveMaxJump (some p)).toNat < idx.toNat → d.key idx p = .error (.keyJump d.ctr idx)) ∧
    (idx.toNat + (resolveMaxOOO (some p)).toNat < largest used → d.key idx p = .error (.keyTrimmed idx)) ∧
    (largest used ≤ idx.toNat + (resolveMaxOOO (some p)).toNat →
      idx.toNat ≤ largest used + (resolveMaxJump (some p)).toNat → (idx.toNat = 0 ∨ idx.toNat ∈ used) →
      d.key idx p = .error (.keyAlreadyRequested idx)) := by
  rcases h.rests.answer hin with ⟨hfar, he⟩ | ⟨hold, he⟩ | ⟨hlo, hhi, ⟨hpos, hnew, d', he, _⟩ | ⟨hused, he⟩⟩
  · rw [he]
    refine ⟨⟨fun ⟨k, d', hk⟩ => ?_, fun hw => ?_⟩, fun k d' hk => ?_, fun _ => rfl, fun hold => ?_,
      fun _ hhi => ?_⟩
    · cases hk
    · omega
    · cases hk
    · omega
    · omega
  · rw [he]
    refine ⟨⟨fun ⟨k, d', hk⟩ => ?_, fun hw => ?_⟩, fun k d' hk => ?_, fun hfar => ?_, fun _ => rfl,
      fun hlo => ?_⟩
    · cases hk
    · omega
    · cases hk
    · omega
    · omega
  · rw [he]
    refine ⟨⟨fun _ => ⟨hpos, hnew, hlo, hhi⟩, fun _ => ⟨_, d', rfl⟩⟩, fun k d' hk => ?_, fun hfar => ?_,
      fun hold => ?_, fun _ _ hused => ?_⟩
    · cases hk
      rfl
    · omega
    · omega
    · rcases hused with h0 | hu
      · omega
      · exact absurd hu hnew
  · rw [he]
    refine ⟨⟨fun ⟨k, d', hk⟩ => ?_, fun hw => ?_⟩, fun k d' hk => ?_, fun hfar => ?_, fun hold => ?_,
      fun _ _ _ => rfl⟩
    · cases hk
    · rcases hused with h0 | hu
      · omega
      · exact absurd hu hw.2.1
    · cases hk
    · omega
    · omega

end

/-- The first call on a fresh direction. -/
theorem receive_window_first :
    ∃ k d', @ChainEpochDirection.key zeroHash (.new (zeros 32)) 3 ⟨10, 5⟩ = .ok (k, d') :=
  (@receive_window_exact zeroHash ⟨10, 5⟩ (zeros 32) [] _ (@KeyCalls.fresh zeroHash _ _) 3
    ⟨by decide, by decide⟩).1.mpr ⟨by decide, by decide, by decide, by decide⟩

end LibSignal.Spqr
