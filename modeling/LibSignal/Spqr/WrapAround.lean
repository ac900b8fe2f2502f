import LibSignal.Lib.ExceptBind
import LibSignal.Spqr.KeyWindow

/-!
# The comparisons of the key window

`key` and `get` compare 32-bit sums that may wrap.
-/

namespace LibSignal.Spqr
open Chunked Crypto Lib

/-- The comparisons of a requested index with the counter: ahead by more than the jump limit, ahead of all
held keys, more keys to skip, a skipped key inside the window, a past key before the window. -/
structure Tests where
  jump : (idx ctr maxJump : UInt32) → Bool
  obsolete : (idx ctr maxOOO : UInt32) → Bool
  more : (idx ctr : UInt32) → Bool
  retain : (idx ctr maxOOO : UInt32) → Bool
  trimmed : (idx ctr maxOOO : UInt32) → Bool

/-- The comparisons as the code makes them, on 32-bit sums and differences. -/
def Tests.machine : Tests where
  jump idx ctr maxJump := idx - ctr > maxJump
  obsolete idx ctr maxOOO := idx > ctr + maxOOO
  more idx ctr := idx > ctr + 1
  retain idx ctr maxOOO := ctr + maxOOO ≥ idx
  trimmed idx ctr maxOOO := idx + maxOOO < ctr

def Tests.unbounded : Tests where
  jump idx ctr maxJump := (idx.toNat : Int) - ctr.toNat > maxJump.toNat
  obsolete idx ctr maxOOO := idx.toNat > ctr.toNat + maxOOO.toNat
  more idx ctr := idx.toNat > ctr.toNat + 1
  retain idx ctr maxOOO := ctr.toNat + maxOOO.toNat ≥ idx.toNat
  trimmed idx ctr maxOOO := idx.toNat + maxOOO.toNat < ctr.toNat

lemma Tests.machine_obsolete (idx ctr maxOOO : UInt32) :
    machine.obsolete idx ctr maxOOO = decide (idx > ctr + maxOOO) := rfl

def KeyHistory.getWith (t : Tests) (h : KeyHistory) (idx currentCtr maxOOO : UInt32) :
    Except Err (Bytes × KeyHistory) × List Bool :=
  let old := t.trimmed idx currentCtr maxOOO
  (if old then .error (.keyTrimmed idx)
    else
      match getLoop (be32 idx) h h.data.length 0 with
      | some r => .ok r
      | none => .error (.keyAlreadyRequested idx),
   [old])

namespace ChainEpochDirection
variable [Hash]

def skipWith (t : Tests) (idx maxOOO : UInt32) :
    Nat → ChainEpochDirection → ChainEpochDirection × List Bool
  | 0, d => (d, [])
  | fuel + 1, d =>
    if t.more idx d.ctr then
      let r := d.nextKeyInternal
      let keep := t.retain idx r.2.ctr maxOOO
      let rest := skipWith t idx maxOOO fuel
        (if keep then { r.2 with prev := r.2.prev.add r.1.1 r.1.2 } else r.2)
      (rest.1, true :: keep :: rest.2)
    else (d, [false])

def advanceWith (t : Tests) (d : ChainEpochDirection) (idx maxOOO : UInt32) :
    (Bytes × ChainEpochDirection) × List Bool :=
  let far := t.obsolete idx d.ctr maxOOO
  let d0 := if far then { d with prev := d.prev.clear } else d
  let s := skipWith t idx maxOOO (idx - d0.ctr).toNat d0
  let d2 := { s.1 with prev := s.1.prev.gc s.1.ctr maxOOO }
  let ((_, k), d3) := d2.nextKeyInternal
  ((k, d3), far :: s.2)

def keyWith (t : Tests) (d : ChainEpochDirection) (idx : UInt32) (p : ChainParams) :
    Except Err (Bytes × ChainEpochDirection) × List Bool :=
  let maxJump := resolveMaxJump (some p)
  let maxOOO := resolveMaxOOO (some p)
  if idx > d.ctr then
    let far := t.jump idx d.ctr maxJump
    if far then (.error (.keyJump d.ctr idx), [far])
    else
      let r := d.advanceWith t idx maxOOO
      (.ok r.1, far :: r.2)
  else if idx < d.ctr then
    let r := d.prev.getWith t idx d.ctr maxOOO
    (do
      let (k, prev) ← r.1
      return (k, { d with prev := prev }), r.2)
  else (.error (.keyAlreadyRequested idx), [])

lemma skipWith_machine (idx maxOOO : UInt32) (fuel : Nat) (d : ChainEpochDirection) :
    (skipWith .machine idx maxOOO fuel d).1 = skipTo idx maxOOO fuel d := by
  induction fuel generalizing d with
  | zero => rfl
  | succ fuel ih =>
    simp only [skipWith, skipTo, Tests.machine, decide_eq_true_eq]
    split
    · exact ih _
    · rfl

lemma advanceWith_machine (d : ChainEpochDirection) (idx maxOOO : UInt32) :
    (d.advanceWith .machine idx maxOOO).1 = d.advanceTo idx maxOOO := by
  simp only [advanceWith, advanceTo, skipWith_machine, Tests.machine_obsolete, decide_eq_true_eq]

/-- Over the machine tests `keyWith` is the code. -/
lemma keyWith_machine (d : ChainEpochDirection) (idx : UInt32) (p : ChainParams) :
    (d.keyWith .machine idx p).1 = d.key idx p := by
  simp only [keyWith, key, KeyHistory.getWith, KeyHistory.get, advanceWith_machine]
  simp only [Tests.machine, decide_eq_true_eq]
  split
  · split <;> rfl
  · split <;> rfl

def skipBits (t : Tests) (idx maxOOO : UInt32) : Nat → UInt32 → List Bool
  | 0, _ => []
  | fuel + 1, ctr =>
    if t.more idx ctr then true :: t.retain idx (ctr + 1) maxOOO :: skipBits t idx maxOOO fuel (ctr + 1)
    else [false]

lemma skipWith_bits (t : Tests) (idx maxOOO : UInt32) (fuel : Nat) (d : ChainEpochDirection) :
    (skipWith t idx maxOOO fuel d).2 = skipBits t idx maxOOO fuel d.ctr := by
  induction fuel generalizing d with
  | zero => rfl
  | succ fuel ih =>
    simp only [skipWith, skipBits]
    split
    · simp only [ih]
      congr 3
      split <;> rfl
    · rfl

lemma advanceWith_bits (t : Tests) (d : ChainEpochDirection) (idx maxOOO : UInt32) :
    (d.advanceWith t idx maxOOO).2
      = t.obsolete idx d.ctr maxOOO :: skipBits t idx maxOOO (idx - d.ctr).toNat d.ctr := by
  simp only [advanceWith, skipWith_bits]
  cases t.obsolete idx d.ctr maxOOO <;> rfl

end ChainEpochDirection

/-! ## Each comparison -/

namespace Tests
variable {idx ctr limit : UInt32}

lemma toNat_add_cases (a b : UInt32) : a.toNat + b.toNat < 2 ^ 32 ∧ (a + b).toNat = a.toNat + b.toNat ∨
      2 ^ 32 ≤ a.toNat + b.toNat ∧ (a + b).toNat + 2 ^ 32 = a.toNat + b.toNat := by
  have ha := a.toNat_lt
  have hb := b.toNat_lt
  rw [UInt32.toNat_add]
  omega

/-- The jump is a difference of an index ahead and never wraps. -/
lemma jump_eq (hlt : ctr.toNat < idx.toNat) : machine.jump idx ctr limit = unbounded.jump idx ctr limit := by
  have hsub : (idx - ctr).toNat = idx.toNat - ctr.toNat :=
    UInt32.toNat_sub_of_le _ _ (UInt32.le_iff_toNat_le.mpr hlt.le)
  refine decide_eq_decide.mpr ?_
  rw [gt_iff_lt, UInt32.lt_iff_toNat_lt, hsub]
  omega

/-- The loop condition never wraps. -/
lemma more_eq (hlt : ctr.toNat < idx.toNat) : machine.more idx ctr = unbounded.more idx ctr := by
  have hidx := idx.toNat_lt
  refine decide_eq_decide.mpr ?_
  rw [gt_iff_lt, UInt32.lt_iff_toNat_lt, ChainEpochDirection.toNat_succ (by omega)]

lemma obsolete_eq_iff (hlt : ctr.toNat < idx.toNat) :
    machine.obsolete idx ctr limit = unbounded.obsolete idx ctr limit ↔ ctr.toNat + limit.toNat < 2 ^ 32 := by
  have hidx := idx.toNat_lt
  have hlimit := limit.toNat_lt
  refine decide_eq_decide.trans ?_
  rw [gt_iff_lt, UInt32.lt_iff_toNat_lt]
  rcases toNat_add_cases ctr limit with ⟨hs, he⟩ | ⟨hs, he⟩ <;> omega

lemma retain_eq_iff (hlt : ctr.toNat < idx.toNat) :
    machine.retain idx ctr limit = unbounded.retain idx ctr limit ↔ ctr.toNat + limit.toNat < 2 ^ 32 := by
  have hidx := idx.toNat_lt
  have hlimit := limit.toNat_lt
  refine decide_eq_decide.trans ?_
  rw [ge_iff_le, UInt32.le_iff_toNat_le]
  rcases toNat_add_cases ctr limit with ⟨hs, he⟩ | ⟨hs, he⟩ <;> omega

lemma trimmed_eq_iff (hlt : idx.toNat < ctr.toNat) :
    machine.trimmed idx ctr limit = unbounded.trimmed idx ctr limit ↔ idx.toNat + limit.toNat < 2 ^ 32 := by
  have hctr := ctr.toNat_lt
  have hlimit := limit.toNat_lt
  refine decide_eq_decide.trans ?_
  rw [UInt32.lt_iff_toNat_lt]
  rcases toNat_add_cases idx limit with ⟨hs, he⟩ | ⟨hs, he⟩ <;> omega

end Tests

namespace ChainEpochDirection

lemma skipBits_eq_iff (idx maxOOO : UInt32) (fuel : Nat) {ctr : UInt32} (hlt : ctr.toNat < idx.toNat)
    (hfuel : idx.toNat ≤ ctr.toNat + fuel) :
    skipBits .machine idx maxOOO fuel ctr = skipBits .unbounded idx maxOOO fuel ctr ↔
      (ctr.toNat + 1 < idx.toNat → idx.toNat - 1 + maxOOO.toNat < 2 ^ 32) := by
  induction fuel generalizing ctr with
  | zero => omega
  | succ fuel ih =>
    have hidx := idx.toNat_lt
    have hctr : (ctr + 1).toNat = ctr.toNat + 1 := toNat_succ (by omega)
    rw [skipBits, skipBits, Tests.more_eq hlt]
    by_cases hmore : ctr.toNat + 1 < idx.toNat
    · have htest : Tests.unbounded.more idx ctr = true := decide_eq_true hmore
      have hlt' : (ctr + 1).toNat < idx.toNat := by omega
      rw [if_pos htest, if_pos htest, List.cons.injEq, List.cons.injEq, Tests.retain_eq_iff hlt',
        ih hlt' (by omega), hctr]
      constructor
      · rintro ⟨-, hnext, hrest⟩ _
        by_cases hlast : ctr.toNat + 1 + 1 < idx.toNat
        · exact hrest hlast
        · omega
      · intro hall
        have hsum := hall hmore
        exact ⟨rfl, by omega, fun _ => hsum⟩
    · have htest : ¬ Tests.unbounded.more idx ctr = true := by
        simpa [Tests.unbounded] using Nat.le_of_not_lt hmore
      rw [if_neg htest, if_neg htest]
      exact ⟨fun _ h => absurd h hmore, fun _ => rfl⟩

variable [Hash]

variable {d : ChainEpochDirection} {idx : UInt32}

lemma skipTo_ctr (idx maxOOO : UInt32) (fuel : Nat) (hlt : d.ctr.toNat < idx.toNat)
    (hfuel : idx.toNat ≤ d.ctr.toNat + fuel) : (skipTo idx maxOOO fuel d).ctr.toNat + 1 = idx.toNat := by
  induction fuel generalizing d with
  | zero => omega
  | succ fuel ih =>
    have hidx := idx.toNat_lt
    have hctr : (d.ctr + 1).toNat = d.ctr.toNat + 1 := toNat_succ (by omega)
    rw [skipTo]
    split
    · rename_i hmore
      have hm := UInt32.lt_iff_toNat_lt.mp hmore
      have hstep : ∀ prev, (ChainEpochDirection.mk (d.ctr + 1) (slice (derive d.next (d.ctr + 1)) 0 32)
          prev).ctr.toNat = d.ctr.toNat + 1 := fun _ => hctr
      dsimp only
      split <;> exact ih (by rw [nextKeyInternal, hstep]; omega) (by rw [nextKeyInternal, hstep]; omega)
    · rename_i hmore
      have hm := mt UInt32.lt_iff_toNat_lt.mpr hmore
      omega

lemma key_ctr {d' : ChainEpochDirection} {p : ChainParams} {k : Bytes} (h : d.key idx p = .ok (k, d')) :
    d'.ctr.toNat = max d.ctr.toNat idx.toNat := by
  simp only [key] at h
  by_cases hahead : idx > d.ctr
  · have hlt := UInt32.lt_iff_toNat_lt.mp hahead
    have hidx := idx.toNat_lt
    rw [if_pos hahead] at h
    split at h
    · cases h
    · cases h
      rw [max_eq_right hlt.le]
      have hsub : (idx - d.ctr).toNat = idx.toNat - d.ctr.toNat :=
        UInt32.toNat_sub_of_le _ _ (UInt32.le_iff_toNat_le.mpr hlt.le)
      have hskip : ∀ d0 : ChainEpochDirection, d0.ctr = d.ctr →
          ((skipTo idx (resolveMaxOOO (some p)) (idx - d0.ctr).toNat d0).ctr + 1).toNat = idx.toNat := by
        intro d0 hd0
        have hctr := skipTo_ctr idx (resolveMaxOOO (some p)) (idx - d0.ctr).toNat (d := d0)
          (by rw [hd0]; exact hlt) (by rw [hd0, hsub]; omega)
        rw [toNat_succ (by omega), hctr]
      refine hskip (ite _ _ _) ?_
      split <;> rfl
  · rw [if_neg hahead] at h
    by_cases hback : idx < d.ctr
    · rw [if_pos hback] at h
      obtain ⟨⟨k', prev⟩, -, hret⟩ := bind_eq_ok h
      cases hret
      exact (max_eq_left (UInt32.lt_iff_toNat_lt.mp hback).le).symm
    · rw [if_neg hback] at h
      cases h

/-- No sum of the request wraps: of a past index and the retention window, or of the index before a future
one and the retention window. -/
def NoWrap (d : ChainEpochDirection) (idx : UInt32) (p : ChainParams) : Prop :=
  (idx < d.ctr → idx.toNat + (resolveMaxOOO (some p)).toNat < 2 ^ 32) ∧
  (d.ctr < idx → idx.toNat ≤ d.ctr.toNat + (resolveMaxJump (some p)).toNat →
    idx.toNat - 1 + (resolveMaxOOO (some p)).toNat < 2 ^ 32)

lemma keyWith_bits_ahead (t : Tests) (h : idx > d.ctr) (p : ChainParams) :
    (d.keyWith t idx p).2 = if t.jump idx d.ctr (resolveMaxJump (some p)) then [true]
      else false :: t.obsolete idx d.ctr (resolveMaxOOO (some p)) ::
        skipBits t idx (resolveMaxOOO (some p)) (idx - d.ctr).toNat d.ctr := by
  simp only [keyWith, if_pos h, ← advanceWith_bits]
  cases t.jump idx d.ctr (resolveMaxJump (some p)) <;> rfl

lemma keyWith_bits_behind (t : Tests) (h : idx < d.ctr) (p : ChainParams) :
    (d.keyWith t idx p).2 = [t.trimmed idx d.ctr (resolveMaxOOO (some p))] := by
  have hnot : ¬ idx > d.ctr := UInt32.not_lt.mpr (UInt32.le_of_lt h)
  simp only [keyWith, if_neg hnot, if_pos h]
  rfl

/-- The decisions of a request are the unbounded ones exactly if no sum wraps. -/
lemma keyWith_bits_iff (d : ChainEpochDirection) (idx : UInt32) (p : ChainParams) :
    (d.keyWith .machine idx p).2 = (d.keyWith .unbounded idx p).2 ↔ d.NoWrap idx p := by
  rcases Nat.lt_trichotomy d.ctr.toNat idx.toNat with hlt | heq | hgt
  · have hahead : d.ctr < idx := UInt32.lt_iff_toNat_lt.mpr hlt
    have hsub : (idx - d.ctr).toNat = idx.toNat - d.ctr.toNat :=
      UInt32.toNat_sub_of_le _ _ (UInt32.le_iff_toNat_le.mpr hlt.le)
    have hnot : ¬ idx < d.ctr := UInt32.not_lt.mpr (UInt32.le_of_lt hahead)
    rw [keyWith_bits_ahead _ hahead, keyWith_bits_ahead _ hahead, Tests.jump_eq hlt, NoWrap]
    by_cases hjump : idx.toNat ≤ d.ctr.toNat + (resolveMaxJump (some p)).toNat
    · have htest : ¬ Tests.unbounded.jump idx d.ctr (resolveMaxJump (some p)) = true := by
        simp only [Tests.unbounded, decide_eq_true_eq]
        omega
      rw [if_neg htest, if_neg htest, List.cons.injEq, List.cons.injEq, Tests.obsolete_eq_iff hlt,
        skipBits_eq_iff idx _ _ hlt (by omega)]
      constructor
      · rintro ⟨-, hctr, hskip⟩
        refine ⟨fun h => absurd h hnot, fun _ _ => ?_⟩
        by_cases hmore : d.ctr.toNat + 1 < idx.toNat
        · exact hskip hmore
        · omega
      · rintro ⟨-, hall⟩
        have hsum := hall hahead hjump
        exact ⟨rfl, by omega, fun _ => hsum⟩
    · have htest : Tests.unbounded.jump idx d.ctr (resolveMaxJump (some p)) = true := by
        simp only [Tests.unbounded, decide_eq_true_eq]
        omega
      rw [if_pos htest, if_pos htest]
      exact ⟨fun _ => ⟨fun h => absurd h hnot, fun _ h => absurd h hjump⟩, fun _ => rfl⟩
  · obtain rfl : d.ctr = idx := UInt32.toNat_inj.mp heq
    simp only [keyWith, NoWrap, UInt32.lt_irrefl, gt_iff_lt, if_false, false_imp_iff, and_self]
  · have hback : idx < d.ctr := UInt32.lt_iff_toNat_lt.mpr hgt
    have hnot : ¬ d.ctr < idx := UInt32.not_lt.mpr (UInt32.le_of_lt hback)
    rw [keyWith_bits_behind _ hback, keyWith_bits_behind _ hback, List.cons.injEq,
      Tests.trimmed_eq_iff hgt, NoWrap]
    exact ⟨fun h => ⟨fun _ => h.1, fun h => absurd h hnot⟩, fun h => ⟨h.1 hback, rfl⟩⟩

end ChainEpochDirection

open ChainEpochDirection in
/-- The decisions of a request agree with the comparisons over unbounded integers exactly if none of its sums
wraps. -/
theorem window_decisions_iff [Hash] (d : ChainEpochDirection) (idx : UInt32) (p : ChainParams) :
    (d.keyWith .machine idx p).1 = d.key idx p ∧
    ((d.keyWith .machine idx p).2 = (d.keyWith .unbounded idx p).2 ↔ d.NoWrap idx p) ∧
    (∀ k d', d.key idx p = .ok (k, d') → d'.ctr.toNat = max d.ctr.toNat idx.toNat) ∧
    (d.nextKey.1.1.toNat = d.ctr.toNat + 1 ↔ d.ctr.toNat + 1 < 2 ^ 32) := by
  refine ⟨keyWith_machine d idx p, keyWith_bits_iff d idx p, fun _ _ h => key_ctr h, fun h => ?_,
    fun h => toNat_succ h⟩
  rw [← h]
  exact d.nextKey.1.1.toNat_lt

/-- With the limits of a self-session, a request for the last index is followed by one four indices
earlier: it is inside the window and is declared trimmed. -/
theorem window_wraps_in_self_session :
    let _ := zeroHash
    let p : ChainParams := ⟨4294967295, 2000⟩
    ∃ k d, (ChainEpochDirection.new (zeros 32)).key 4294967295 p = .ok (k, d) ∧
      d.key 4294967291 p = .error (.keyTrimmed 4294967291) ∧
      ¬ (4294967291 : UInt32).toNat + p.maxOooKeys.toNat < d.ctr.toNat := by
  let _ := zeroHash
  let p : ChainParams := ⟨4294967295, 2000⟩
  obtain ⟨k, d, hkey, -, -, hctr⟩ := @ChainEpochDirection.key_ahead _ _ _
    (ChainEpochDirection.derives_tracks (zeros 32)) _ (ChainEpochDirection.new_tracks (zeros 32))
    4294967295 p (by decide) (by decide)
  refine ⟨k, d, hkey, ?_, ?_⟩
  · simp only [ChainEpochDirection.key, hctr]
    rfl
  · rw [hctr]
    decide

end LibSignal.Spqr
