import Mathlib.Data.List.Nodup
import Mathlib.Data.List.Basic

/-!
# Lists of the most recent entries

A log of additions, newest first, names each key any number of times. `recent key log` keeps the newest entry
of every key.
-/

namespace LibSignal.Lib

variable {α κ : Type*} [DecidableEq κ] (key : α → κ)

def recent : List α → List α
  | [] => []
  | a :: log => a :: (recent log).filter (key · != key a)

lemma recent_nodup (log : List α) : ((recent key log).map key).Nodup := by
  induction log with
  | nil => exact List.nodup_nil
  | cons a log ih =>
    rw [recent, List.map_cons, List.nodup_cons]
    refine ⟨fun hmem => ?_, ih.sublist (List.filter_sublist.map key)⟩
    obtain ⟨b, hb, hkey⟩ := List.mem_map.mp hmem
    exact bne_iff_ne.mp (List.mem_filter.mp hb).2 hkey

variable {key}

lemma filter_key_ne {l : List α} {k : κ} (h : k ∉ l.map key) : l.filter (key · != k) = l := by
  refine List.filter_eq_self.mpr fun a ha => bne_iff_ne.mpr ?_
  rintro rfl
  exact h (List.mem_map_of_mem ha)

lemma take_filter_key {l : List α} (h : (l.map key).Nodup) (k : κ) (n : Nat) :
    (l.filter (key · != k)).take n = ((l.take (n + 1)).filter (key · != k)).take n := by
  induction l generalizing n with
  | nil => rfl
  | cons a l ih =>
    rw [List.map_cons, List.nodup_cons] at h
    rw [List.take_succ_cons]
    by_cases hk : key a = k
    · subst hk
      have htake : key a ∉ (l.take n).map key := fun hmem =>
        h.1 (((List.take_sublist n l).map key).mem hmem)
      rw [List.filter_cons_of_neg (by simp), List.filter_cons_of_neg (by simp), filter_key_ne h.1,
        filter_key_ne htake, List.take_take, Nat.min_self]
    · rw [List.filter_cons_of_pos (by simpa using hk), List.filter_cons_of_pos (by simpa using hk)]
      cases n with
      | zero => rfl
      | succ n => rw [List.take_succ_cons, List.take_succ_cons, ih h.2]

lemma take_recent_cons (a : α) (log : List α) (n : Nat) : (recent key (a :: log)).take (n + 1) =
      a :: (((recent key log).take (n + 1)).filter (key · != key a)).take n := by
  rw [recent, List.take_succ_cons, take_filter_key (recent_nodup key log)]

lemma lost_last {l : List α} {n : Nat} (hlen : l.length ≤ n + 1) {k : κ} {a : α} (ha : a ∈ l)
    (hka : key a ≠ k) (hlost : a ∉ (l.filter (key · != k)).take n) :
    k ∉ l.map key ∧ l.length = n + 1 ∧ l.getLast? = some a := by
  have hkept : a ∈ l.filter (key · != k) := List.mem_filter.mpr ⟨ha, bne_iff_ne.mpr hka⟩
  have hfilter : n < (l.filter (key · != k)).length := by
    by_contra hle
    rw [List.take_of_length_le (Nat.not_lt.mp hle)] at hlost
    exact hlost hkept
  have hle := List.length_filter_le (key · != k) l
  have hfull : l.length = n + 1 := by omega
  -- nothing was taken out, so what was lost is what the bound drops
  have hall : l.filter (key · != k) = l :=
    List.filter_sublist.eq_of_length_le (by omega)
  rw [hall] at hlost
  refine ⟨fun hmem => ?_, hfull, ?_⟩
  · obtain ⟨b, hb, rfl⟩ := List.mem_map.mp hmem
    rw [← hall] at hb
    exact bne_iff_ne.mp (List.mem_filter.mp hb).2 rfl
  · have hsplit := List.take_append_drop n l
    obtain ⟨b, hb⟩ := List.length_eq_one_iff.mp (show (l.drop n).length = 1 by rw [List.length_drop]; omega)
    rw [hb] at hsplit
    rw [← hsplit, List.mem_append, List.mem_singleton] at ha
    obtain rfl := ha.resolve_left hlost
    rw [← hsplit, List.getLast?_concat]

end LibSignal.Lib
