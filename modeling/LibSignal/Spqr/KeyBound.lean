import LibSignal.Spqr.KeyWindow

/-!
# The size of the key history

Between calls the packed history of a direction is a list of 36-byte records with distinct indices below the
counter, and there are at most `trimSize` of them (`key_history_bounded`).
-/

namespace LibSignal.Spqr
open Chunked Crypto

namespace KeyHistory
variable {h : KeyHistory} {es es' : List (UInt32 × Bytes)}

lemma flatMap_pack_injective (hes : ∀ e ∈ es, e.2.length = 32) (hes' : ∀ e ∈ es', e.2.length = 32)
    (heq : es.flatMap pack = es'.flatMap pack) : es = es' := by
  induction es generalizing es' with
  | nil =>
    cases es' with
    | nil => rfl
    | cons e' es' => simp [pack, be32] at heq
  | cons e es ih =>
    cases es' with
    | nil => simp [pack, be32] at heq
    | cons e' es' =>
      obtain ⟨hmem, hrest⟩ := List.forall_mem_cons.mp hes
      obtain ⟨hmem', hrest'⟩ := List.forall_mem_cons.mp hes'
      rw [List.flatMap_cons, List.flatMap_cons] at heq
      obtain ⟨hpack, htail⟩ :=
        List.append_inj heq ((length_pack hmem).trans (length_pack hmem').symm)
      obtain ⟨hidx, hkey⟩ := List.append_inj hpack rfl
      rw [Prod.ext (be32_injective hidx) hkey, ih hrest hrest' htail]

lemma Packs.unique (hp : h.Packs es) (hp' : h.Packs es') : es = es' :=
  flatMap_pack_injective hp.size hp'.size (hp.data.symm.trans hp'.data)

lemma Packs.length_data (hp : h.Packs es) : h.data.length = keyHistoryEntry * es.length := by
  rw [hp.data, length_packs hp.size]

lemma length_le_of_window {lo hi : Nat} (hnodup : (es.map Prod.fst).Nodup)
    (hin : ∀ e ∈ es, lo ≤ e.1.toNat ∧ e.1.toNat ≤ hi) : es.length ≤ hi + 1 - lo := by
  have hnat : (es.map fun e => e.1.toNat).Nodup := by
    have hmap := hnodup.map fun (a b : UInt32) hab => UInt32.toNat_inj.mp hab
    rwa [List.map_map] at hmap
  have hsub : (es.map fun e => e.1.toNat).toFinset ⊆ Finset.Icc lo hi := by
    intro n hn
    obtain ⟨e, he, rfl⟩ := List.mem_map.mp (List.mem_toFinset.mp hn)
    exact Finset.mem_Icc.mpr (hin e he)
  calc es.length = (es.map fun e => e.1.toNat).toFinset.card := by
        rw [List.toFinset_card_of_nodup hnat, List.length_map]
    _ ≤ (Finset.Icc lo hi).card := Finset.card_le_card hsub
    _ = hi + 1 - lo := Nat.card_Icc lo hi

lemma lt_trimSize (maxOOO : UInt32) : maxOOO.toNat < trimSize maxOOO := by
  rw [trimSize]
  omega

lemma Packs.gc_bounded (hp : h.Packs es) {currentKey maxOOO : UInt32}
    (hp' : (h.gc currentKey maxOOO).Packs es') (hnodup : (es'.map Prod.fst).Nodup)
    (hle : ∀ e ∈ es', e.1.toNat ≤ currentKey.toNat) : es'.length ≤ trimSize maxOOO := by
  by_cases hfull : trimSize maxOOO * keyHistoryEntry ≤ h.data.length
  · obtain ⟨es0, hp0, hperm⟩ := hp.gc_full currentKey hfull
    obtain rfl := hp0.unique hp'
    have hwin : ∀ e ∈ es0, currentKey.toNat - maxOOO.toNat ≤ e.1.toNat := fun e he => by
      simpa using (List.mem_filter.mp (hperm.mem_iff.mp he)).2
    have hcount := length_le_of_window hnodup fun e he => ⟨hwin e he, hle e he⟩
    have htrim := lt_trimSize maxOOO
    omega
  · rw [KeyHistory.gc, if_pos (Nat.lt_of_not_le hfull)] at hp'
    have hlen := hp'.length_data
    rw [keyHistoryEntry] at hlen hfull
    omega

lemma Packs.gcLoop_done (hp : h.Packs es) (horizonBE : Bytes) (more : Nat) :
    KeyHistory.gcLoop horizonBE (h.data.length + more) h 0 = KeyHistory.gcLoop horizonBE h.data.length h 0 := by
  induction more with
  | zero => rfl
  | succ more ih =>
    have hstep := Packs.gcLoop_fuel horizonBE (h.data.length + more)
      (show h.Packs ([] ++ es) from hp) (hp.length_le.trans (Nat.le_add_right _ _))
    exact hstep.trans ih

end KeyHistory

namespace ChainEpochDirection
variable [Hash] {p : ChainParams} {seed : Bytes} {used : List Nat} {d d' : ChainEpochDirection}
  {idx : UInt32} {k : Bytes}

lemma Rests.records (h : Rests p seed used d) : ∃ es, d.prev.Packs es ∧ (es.map Prod.fst).Nodup ∧
      ∀ e ∈ es, e.1.toNat < d.ctr.toNat ∧ e.2 = streamKey seed e.1.toNat := by
  obtain ⟨es, hp, hr⟩ := h.windowed.prev
  refine ⟨es, hp, hr.nodup, fun e he => ⟨lt_of_le_of_ne (hr.le e he) fun heq => ?_, hr.key e he⟩⟩
  -- the counter itself is the largest index returned
  have hpos := hr.pos e he
  rw [heq, h.ctr] at hpos
  have hmem := (largest_mem used).resolve_left (by omega)
  rw [← h.ctr, ← heq] at hmem
  exact hr.unused e he hmem

lemma Rests.bounded (h : Rests p seed used d) (h' : Rests p seed (idx.toNat :: used) d')
    (hkey : d.key idx p = .ok (k, d'))
    (hb : d.prev.data.length ≤ KeyHistory.trimSize (resolveMaxOOO (some p)) * keyHistoryEntry) :
    d'.prev.data.length ≤ KeyHistory.trimSize (resolveMaxOOO (some p)) * keyHistoryEntry := by
  obtain ⟨es', hp', hnodup, hin⟩ := h'.records
  rw [hp'.length_data, Nat.mul_comm]
  simp only [key] at hkey
  by_cases hahead : idx > d.ctr
  · rw [if_pos hahead] at hkey
    split at hkey
    · cases hkey
    · obtain ⟨d1, hd1, -, hctr1, heq⟩ := advanceTo_inv (derives_tracks seed) h.tracks
        (resolveMaxOOO (some p)) (UInt32.lt_iff_toNat_lt.mp hahead)
      rw [heq] at hkey
      cases hkey
      obtain ⟨es, hp, -⟩ := hd1.prev
      refine Nat.mul_le_mul_right _ (hp.gc_bounded hp' hnodup fun e he => ?_)
      have hlt : e.1.toNat < idx.toNat := (hin e he).1
      omega
  · rw [if_neg hahead] at hkey
    by_cases hback : idx < d.ctr
    · rw [if_pos hback, KeyHistory.get] at hkey
      split at hkey
      · cases hkey
      · cases hloop : KeyHistory.getLoop (be32 idx) d.prev d.prev.data.length 0 with
        | none =>
          rw [hloop] at hkey
          cases hkey
        | some r =>
          obtain ⟨es, hp, -, -⟩ := h.records
          rw [hloop] at hkey
          cases hkey
          obtain ⟨e, rest, hperm, -, -, hrest⟩ :=
            KeyHistory.Packs.getLoop d.prev.data.length (show d.prev.Packs ([] ++ es) from hp) hloop
          obtain rfl := hrest.unique hp'
          have hlen := hperm.length_eq
          rw [List.length_cons, List.nil_append] at hlen
          rw [hp.length_data, Nat.mul_comm] at hb
          exact le_trans (Nat.mul_le_mul_right _ (by omega)) hb
    · rw [if_neg hback] at hkey
      cases hkey

end ChainEpochDirection

section
variable [Hash]

lemma KeyCalls.bounded {p : ChainParams} {seed : Bytes} {used : List Nat} {d : ChainEpochDirection}
    (h : KeyCalls p seed used d) :
    d.prev.data.length ≤ KeyHistory.trimSize (resolveMaxOOO (some p)) * keyHistoryEntry := by
  induction h with
  | fresh => exact Nat.zero_le _
  | miss _ _ _ ih => exact ih
  | hit hrun hin hkey ih => exact hrun.rests.bounded (hrun.hit hin hkey).rests hkey ih

/-- The packed history is well formed and bounded after any calls, and the collection loop ends having
removed exactly the records before the retention window. -/
theorem key_history_bounded {p : ChainParams} {seed : Bytes} {used : List Nat} {d : ChainEpochDirection}
    (h : KeyCalls p seed used d) :
    (∃ es, d.prev.Packs es ∧ keyHistoryEntry ∣ d.prev.data.length ∧ (es.map Prod.fst).Nodup ∧
      (∀ e ∈ es, e.1 < d.ctr ∧ e.2 = streamKey seed e.1.toNat) ∧
      es.length ≤ KeyHistory.trimSize (resolveMaxOOO (some p))) ∧
    ∀ (hist : KeyHistory) (es : List (UInt32 × Bytes)) (currentKey maxOOO : UInt32), hist.Packs es →
      KeyHistory.trimSize maxOOO * keyHistoryEntry ≤ hist.data.length → maxOOO ≤ currentKey →
      (∃ es', (hist.gc currentKey maxOOO).Packs es' ∧
        es'.Perm (es.filter fun e => currentKey.toNat - maxOOO.toNat ≤ e.1.toNat)) ∧
      ∀ more, KeyHistory.gcLoop (be32 (currentKey - maxOOO)) (hist.data.length + more) hist 0
        = hist.gc currentKey maxOOO := by
  constructor
  · obtain ⟨es, hp, hnodup, hin⟩ := h.rests.records
    have hb := h.bounded
    rw [hp.length_data, Nat.mul_comm] at hb
    refine ⟨es, hp, ?_, hnodup, fun e he => ?_, Nat.le_of_mul_le_mul_right hb (by decide)⟩
    · rw [hp.length_data]
      exact Nat.dvd_mul_right _ _
    · exact ⟨UInt32.lt_iff_toNat_lt.mpr (hin e he).1, (hin e he).2⟩
  · intro hist es currentKey maxOOO hp hfull hge
    refine ⟨hp.gc_full currentKey hfull, fun more => ?_⟩
    rw [hp.gcLoop_done, KeyHistory.gc, if_neg (Nat.not_lt.mpr hfull), if_neg (UInt32.not_lt.mpr hge)]

end

/-- The history after the first call, which skipped two keys. -/
theorem key_history_bounded_first :
    ∃ k d', @ChainEpochDirection.key zeroHash (.new (zeros 32)) 3 ⟨10, 5⟩ = .ok (k, d') ∧
      ∃ es, d'.prev.Packs es ∧ es.length ≤ 6 := by
  let _ := zeroHash
  have hin : InRange ⟨10, 5⟩ [] 3 := ⟨by decide, by decide⟩
  obtain ⟨k, d', hkey, -⟩ := @ChainEpochDirection.key_ahead _ _ _
    (ChainEpochDirection.derives_tracks (zeros 32)) _ (ChainEpochDirection.new_tracks (zeros 32))
    3 ⟨10, 5⟩ (by decide) (by decide)
  obtain ⟨⟨es, hp, -, -, -, hle⟩, -⟩ := key_history_bounded (KeyCalls.fresh.hit hin hkey)
  exact ⟨k, d', hkey, es, hp, hle⟩

end LibSignal.Spqr
