import Mathlib.Data.List.Pairwise
import Mathlib.Data.List.Range
import Mathlib.Tactic

/-!
# A bounded archive behind a current item

One item is current; archiving it puts it in front of a list that holds at most `cap` items and drops its last
one when it is full.
-/

namespace LibSignal.Lib

structure Archive where
  current : Option Nat
  stored : List (Nat × Nat)
  lost : List Nat
  count : Nat
  clock : Nat

namespace Archive

def start : Archive := ⟨none, [], [], 0, 0⟩

def kept (cap : Nat) (a : Archive) : List (Nat × Nat) :=
  if cap ≤ a.stored.length then a.stored.dropLast else a.stored

def dropped (cap : Nat) (a : Archive) : List (Nat × Nat) :=
  if cap ≤ a.stored.length then a.stored.getLast?.toList else []

def archive (cap : Nat) (a : Archive) : Archive :=
  match a.current with
  | none => a
  | some k =>
    { a with current := none, stored := (k, a.clock) :: a.kept cap,
             lost := a.lost ++ (a.dropped cap).map (·.1), clock := a.clock + 1 }

def promote (cap : Nat) (a : Archive) : Archive :=
  { a.archive cap with current := some a.count, count := a.count + 1 }

def promoteOld (cap i : Nat) (a : Archive) : Archive :=
  match a.stored[i]? with
  | none => a
  | some p => { archive cap { a with stored := a.stored.eraseIdx i } with current := some p.1 }

def held (a : Archive) : List Nat := a.current.toList ++ a.stored.map (·.1)

structure Ordered (cap : Nat) (a : Archive) : Prop where
  length_le : a.stored.length ≤ cap
  sorted : (a.stored.map (·.2)).Pairwise (· > ·)
  past : ∀ p ∈ a.stored, p.2 < a.clock

structure Sound (cap : Nat) (a : Archive) : Prop extends Ordered cap a where
  complete : (a.held ++ a.lost).Perm (List.range a.count)

variable {cap : Nat} {a : Archive}

lemma sound_start (cap : Nat) : start.Sound cap where
  length_le := Nat.zero_le _
  sorted := .nil
  past := fun _ h => absurd h List.not_mem_nil
  complete := .nil

lemma kept_append_dropped (cap : Nat) (a : Archive) : a.kept cap ++ a.dropped cap = a.stored := by
  rw [kept, dropped]
  split
  · rcases List.eq_nil_or_concat a.stored with h | ⟨l, p, h⟩
    · rw [h]
      rfl
    · rw [h, List.concat_eq_append, List.dropLast_concat, List.getLast?_concat]
      rfl
  · exact List.append_nil _

lemma kept_sublist (cap : Nat) (a : Archive) : (a.kept cap).Sublist a.stored := by
  rw [← kept_append_dropped cap a]
  exact List.sublist_append_left _ _

lemma kept_of_lt (h : a.stored.length < cap) : a.kept cap = a.stored := if_neg (not_le.mpr h)

lemma dropped_of_lt (h : a.stored.length < cap) : a.dropped cap = [] := if_neg (not_le.mpr h)

lemma Ordered.sublist (h : a.Ordered cap) {l : List (Nat × Nat)} (hl : l.Sublist a.stored) :
    Ordered cap { a with stored := l } where
  length_le := hl.length_le.trans h.length_le
  sorted := h.sorted.sublist (hl.map _)
  past := fun p hp => h.past p (hl.mem hp)

lemma Ordered.length_kept (h : a.Ordered cap) (hcap : 0 < cap) : (a.kept cap).length + 1 ≤ cap := by
  have hle := h.length_le
  rw [kept]
  split
  · rw [List.length_dropLast]
    omega
  · omega

lemma Ordered.archive (h : a.Ordered cap) (hcap : 0 < cap) : (a.archive cap).Ordered cap := by
  rw [Archive.archive]
  split
  · exact h
  · rename_i k hk
    have hkept := h.sublist (kept_sublist cap a)
    refine ⟨h.length_kept hcap, List.pairwise_cons.mpr ⟨?_, hkept.sorted⟩, ?_⟩
    · intro t ht
      obtain ⟨p, hp, rfl⟩ := List.mem_map.mp ht
      exact hkept.past p hp
    · intro p hp
      rcases List.mem_cons.mp hp with rfl | hp
      · exact Nat.lt_succ_self _
      · exact Nat.lt_succ_of_lt (hkept.past p hp)

lemma Sound.archive (h : a.Sound cap) (hcap : 0 < cap) : (a.archive cap).Sound cap := by
  refine ⟨h.toOrdered.archive hcap, ?_⟩
  rw [Archive.archive]
  split
  · exact h.complete
  · rename_i k hk
    refine List.Perm.trans ?_ h.complete
    have hparts : a.stored.map (·.1) = (a.kept cap).map (·.1) ++ (a.dropped cap).map (·.1) := by
      rw [← List.map_append, kept_append_dropped]
    rw [held, held, hk, hparts]
    simp only [Option.toList_none, Option.toList_some, List.nil_append, List.map_cons, List.cons_append,
      List.append_assoc]
    refine List.Perm.cons k (List.Perm.append_left _ ?_)
    exact List.perm_append_comm

lemma archive_current (cap : Nat) (a : Archive) : (a.archive cap).current = none := by
  rw [Archive.archive]
  split
  · assumption
  · rfl

lemma archive_count (cap : Nat) (a : Archive) : (a.archive cap).count = a.count := by
  rw [Archive.archive]
  split <;> rfl

lemma Sound.promote (h : a.Sound cap) (hcap : 0 < cap) : (a.promote cap).Sound cap := by
  have harch := h.archive hcap
  refine ⟨⟨harch.length_le, harch.sorted, harch.past⟩, ?_⟩
  have hcomplete := harch.complete
  rw [held, archive_current, archive_count] at hcomplete
  change (a.count :: ((a.archive cap).stored.map (·.1) ++ (a.archive cap).lost)).Perm
    (List.range (a.count + 1))
  rw [List.range_succ]
  exact (List.Perm.cons _ hcomplete).trans (List.perm_append_singleton _ _).symm

variable {i : Nat} {p : Nat × Nat}

lemma length_eraseIdx_lt (h : a.Sound cap) (hp : a.stored[i]? = some p) : (a.stored.eraseIdx i).length < cap := by
  obtain ⟨hi, -⟩ := List.getElem?_eq_some_iff.mp hp
  have hle := h.length_le
  rw [List.length_eraseIdx_of_lt hi]
  omega

lemma promoteOld_some (hp : a.stored[i]? = some p) : a.promoteOld cap i =
      { archive cap { a with stored := a.stored.eraseIdx i } with current := some p.1 } := by
  rw [promoteOld, hp]

lemma Sound.promoteOld_eq (h : a.Sound cap) (hp : a.stored[i]? = some p) :
    (a.promoteOld cap i).lost = a.lost ∧ (a.promoteOld cap i).current = some p.1 ∧
      (a.promoteOld cap i).stored.map (·.1) = a.current.toList ++ (a.stored.eraseIdx i).map (·.1) := by
  have hroom := length_eraseIdx_lt h hp
  rw [promoteOld_some hp, Archive.archive]
  cases hcur : a.current with
  | none => exact ⟨rfl, rfl, rfl⟩
  | some k =>
    dsimp only
    rw [kept_of_lt hroom, dropped_of_lt hroom]
    exact ⟨List.append_nil _, rfl, rfl⟩

lemma Sound.promoteOld (h : a.Sound cap) (hcap : 0 < cap) (i : Nat) : (a.promoteOld cap i).Sound cap := by
  cases hp : a.stored[i]? with
  | none =>
    rw [Archive.promoteOld, hp]
    exact h
  | some p =>
    obtain ⟨hlost, hcur, hstored⟩ := h.promoteOld_eq hp
    obtain ⟨hi, hget⟩ := List.getElem?_eq_some_iff.mp hp
    have hordered := (h.toOrdered.sublist (List.eraseIdx_sublist a.stored i)).archive hcap
    have hcount : (a.promoteOld cap i).count = a.count := by
      rw [promoteOld_some hp]
      exact archive_count cap _
    refine ⟨?_, ?_⟩
    · rw [promoteOld_some hp]
      exact ⟨hordered.length_le, hordered.sorted, hordered.past⟩
    · rw [hcount, held, hcur, hstored, hlost]
      refine List.Perm.trans ?_ h.complete
      have hperm : (p.1 :: (a.stored.eraseIdx i).map (·.1)).Perm (a.stored.map (·.1)) := by
        rw [← hget]
        exact (List.getElem_cons_eraseIdx_perm hi).map (·.1)
      have hmiddle : (p.1 :: (a.current.toList ++ (a.stored.eraseIdx i).map (·.1))).Perm
          (a.current.toList ++ p.1 :: (a.stored.eraseIdx i).map (·.1)) := List.perm_middle.symm
      exact List.Perm.append_right _ (hmiddle.trans (List.Perm.append_left _ hperm))

end Archive

end LibSignal.Lib
