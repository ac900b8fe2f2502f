import Mathlib.Data.List.Pairwise
import Mathlib.Tactic

/-!
# A receive window with a bounded cache of skipped indices

Messages of a chain are numbered; a receiver keeps the next index, and for indices it went past without using
them a bounded cache that drops its oldest entry when full.
-/

namespace LibSignal.Lib

variable {n : Nat}

lemma toNat_toUInt32 (h : n < 2 ^ 32) : n.toUInt32.toNat = n := by
  rw [Nat.toUInt32_eq, UInt32.toNat_ofNat']
  exact Nat.mod_eq_of_lt h

lemma toUInt32_inj {m : Nat} (hm : m < 2 ^ 32) (hn : n < 2 ^ 32) : m.toUInt32 = n.toUInt32 ↔ m = n := by
  rw [← UInt32.toNat_inj, toNat_toUInt32 hm, toNat_toUInt32 hn]

lemma toUInt32_lt {m : Nat} (hm : m < 2 ^ 32) (hn : n < 2 ^ 32) : m.toUInt32 < n.toUInt32 ↔ m < n := by
  rw [UInt32.lt_iff_toNat_lt, toNat_toUInt32 hm, toNat_toUInt32 hn]

def keepLast {α : Type} (cap : Nat) (l : List α) : List α := l.drop (l.length - cap)

lemma map_keepLast {α β : Type} (f : α → β) (cap : Nat) (l : List α) :
    (keepLast cap l).map f = keepLast cap (l.map f) := by
  rw [keepLast, keepLast, List.map_drop, List.length_map]

lemma length_keepLast_le {α : Type} (cap : Nat) (l : List α) : (keepLast cap l).length ≤ cap := by
  rw [keepLast, List.length_drop]
  omega

lemma keepLast_of_le {α : Type} {cap : Nat} {l : List α} (h : l.length ≤ cap) : keepLast cap l = l := by
  rw [keepLast, Nat.sub_eq_zero_of_le h, List.drop_zero]

lemma find?_indexed {α : Type} {f : Nat → α} {p : α → Bool} {k : Nat} {l : List Nat}
    (h : ∀ j ∈ l, p (f j) = (j == k)) : (l.map f).find? p = if k ∈ l then some (f k) else none := by
  induction l with
  | nil => rfl
  | cons j l ih =>
    have hj := h j List.mem_cons_self
    rw [List.map_cons]
    by_cases hjk : j = k
    · rw [hjk, beq_self_eq_true] at hj
      rw [hjk, List.find?_cons_of_pos hj, if_pos List.mem_cons_self]
    · rw [beq_false_of_ne hjk] at hj
      rw [List.find?_cons_of_neg (Bool.eq_false_iff.mp hj), ih fun x hx => h x (List.mem_cons_of_mem j hx)]
      exact if_congr (by simp [Ne.symm hjk]) rfl rfl

lemma eraseP_indexed {α : Type} {f : Nat → α} {p : α → Bool} {k : Nat} {l : List Nat}
    (h : ∀ j ∈ l, p (f j) = (j == k)) : (l.map f).eraseP p = (l.erase k).map f := by
  induction l with
  | nil => rfl
  | cons j l ih =>
    have hj := h j List.mem_cons_self
    rw [List.map_cons]
    by_cases hjk : j = k
    · rw [hjk, beq_self_eq_true] at hj
      rw [hjk, List.eraseP_cons_of_pos hj, List.erase_cons_head]
    · have hbeq := beq_false_of_ne hjk
      rw [hbeq] at hj
      rw [List.eraseP_cons_of_neg (Bool.eq_false_iff.mp hj),
        List.erase_cons_tail (Bool.eq_false_iff.mp hbeq), List.map_cons,
        ih fun x hx => h x (List.mem_cons_of_mem j hx)]

/-! ## Windows -/

structure Window where
  next : Nat
  skipped : List Nat
  used : List Nat
  cache : List Nat

namespace Window

def start (i : Nat) : Window := ⟨i, [], [], []⟩

def skip (cap : Nat) (w : Window) : Window :=
  { w with next := w.next + 1, skipped := w.skipped ++ [w.next], cache := keepLast cap (w.cache ++ [w.next]) }

@[simp] lemma skip_next (cap : Nat) (w : Window) : (w.skip cap).next = w.next + 1 := rfl

@[simp] lemma skip_cache (cap : Nat) (w : Window) :
    (w.skip cap).cache = keepLast cap (w.cache ++ [w.next]) := rfl

def skipMany (cap : Nat) : Nat → Window → Window
  | 0, w => w
  | n + 1, w => skipMany cap n (w.skip cap)

def useNext (w : Window) : Window := { w with next := w.next + 1, used := w.next :: w.used }

def useCached (k : Nat) (w : Window) : Window := { w with used := k :: w.used, cache := w.cache.erase k }

def skippedSince (w : Window) (k : Nat) : Nat := (w.skipped.filter (k < ·)).length

def use (cap k : Nat) (w : Window) : Option Window :=
  if k < w.next then (if k ∈ w.cache then some (w.useCached k) else none)
  else some (w.skipMany cap (k - w.next)).useNext

structure Sound (cap i : Nat) (w : Window) : Prop where
  sorted : w.skipped.Pairwise (· < ·)
  skipped_lt : ∀ k ∈ w.skipped, k < w.next
  used_lt : ∀ k ∈ w.used, k < w.next
  cached : w.cache.Sublist w.skipped
  length_cache : w.cache.length ≤ cap
  unused : ∀ k ∈ w.cache, k ∉ w.used
  kept : ∀ k ∈ w.skipped, k ∉ w.used → w.skippedSince k < cap → k ∈ w.cache
  covered : ∀ k, i ≤ k → k < w.next → k ∈ w.skipped ∨ k ∈ w.used

variable {cap i : Nat} {w : Window}

lemma sound_start (cap i : Nat) : (start i).Sound cap i where
  sorted := .nil
  skipped_lt := fun _ h => absurd h List.not_mem_nil
  used_lt := fun _ h => absurd h List.not_mem_nil
  cached := .slnil
  length_cache := Nat.zero_le _
  unused := fun _ h => absurd h List.not_mem_nil
  kept := fun _ h => absurd h List.not_mem_nil
  covered := fun _ h h' => absurd h' (not_lt.mpr h)

lemma Sound.cache_lt (h : w.Sound cap i) : ∀ k ∈ w.cache, k < w.next :=
  fun k hk => h.skipped_lt k (h.cached.mem hk)

lemma Sound.cache_sorted (h : w.Sound cap i) : w.cache.Pairwise (· < ·) := h.sorted.sublist h.cached

lemma Sound.cache_nodup (h : w.Sound cap i) : w.cache.Nodup := h.cache_sorted.imp (fun hlt => ne_of_lt hlt)

variable {k : Nat} {w' : Window}

lemma Sound.length_le_skippedSince (h : w.Sound cap i) {rest : List Nat} (hc : w.cache = k :: rest) :
    rest.length ≤ w.skippedSince k := by
  have hsorted : ∀ x ∈ rest, k < x := (List.pairwise_cons.mp (hc ▸ h.cache_sorted)).1
  have hfilter : w.cache.filter (k < ·) = rest := by
    rw [hc, List.filter_cons_of_neg (by simp)]
    exact List.filter_eq_self.mpr fun x hx => decide_eq_true (hsorted x hx)
  rw [← hfilter]
  exact (h.cached.filter _).length_le

lemma Sound.skippedSince_skip (h : w.Sound cap i) (hk : k ∈ w.skipped) :
    (w.skip cap).skippedSince k = w.skippedSince k + 1 := by
  have hnext : [w.next].filter (k < ·) = [w.next] :=
    List.filter_cons_of_pos (decide_eq_true (h.skipped_lt k hk))
  change ((w.skipped ++ [w.next]).filter (k < ·)).length = _
  rw [List.filter_append, hnext, List.length_append]
  rfl

lemma Sound.mem_skip (h : w.Sound cap i) (hk : k ∈ w.cache) (hsince : w.skippedSince k + 1 < cap) :
    k ∈ keepLast cap (w.cache ++ [w.next]) := by
  by_cases hfull : (w.cache ++ [w.next]).length ≤ cap
  · rw [keepLast_of_le hfull]
    exact List.mem_append_left _ hk
  · -- a full cache loses its first entry, which has `cap - 1` entries behind it
    have hlen : w.cache.length = cap := by
      have hle := h.length_cache
      rw [List.length_append, List.length_singleton] at hfull
      omega
    cases hc : w.cache with
    | nil => rw [hc] at hk; exact absurd hk List.not_mem_nil
    | cons a rest =>
      have hdrop : keepLast cap (a :: rest ++ [w.next]) = rest ++ [w.next] := by
        rw [hc] at hlen
        rw [keepLast, List.length_append, hlen, List.length_singleton, Nat.add_sub_cancel_left]
        rfl
      rw [hdrop]
      rw [hc] at hk
      rcases List.mem_cons.mp hk with rfl | hk
      · have hle := h.length_le_skippedSince hc
        rw [hc, List.length_cons] at hlen
        omega
      · exact List.mem_append_left _ hk

lemma Sound.skip (h : w.Sound cap i) : (w.skip cap).Sound cap i where
  sorted := by
    refine List.pairwise_append.mpr ⟨h.sorted, List.pairwise_singleton _ _, ?_⟩
    intro a ha b hb
    rw [List.mem_singleton.mp hb]
    exact h.skipped_lt a ha
  skipped_lt := by
    intro k hk
    rcases List.mem_append.mp hk with hk | hk
    · exact Nat.lt_succ_of_lt (h.skipped_lt k hk)
    · rw [List.mem_singleton.mp hk]
      exact Nat.lt_succ_self _
  used_lt := fun k hk => Nat.lt_succ_of_lt (h.used_lt k hk)
  cached := (List.drop_sublist _ _).trans (h.cached.append (List.Sublist.refl _))
  length_cache := length_keepLast_le _ _
  unused := by
    intro k hk
    rcases List.mem_append.mp (List.mem_of_mem_drop hk) with hk | hk
    · exact h.unused k hk
    · rw [List.mem_singleton.mp hk]
      exact fun hu => lt_irrefl _ (h.used_lt _ hu)
  kept := by
    intro k hk hunused hsince
    rcases List.mem_append.mp hk with hk | hk
    · rw [h.skippedSince_skip hk] at hsince
      exact h.mem_skip (h.kept k hk hunused (by omega)) hsince
    · rw [List.mem_singleton.mp hk]
      have hcap : w.cache.length + 1 - cap ≤ w.cache.length := by omega
      change w.next ∈ (w.cache ++ [w.next]).drop ((w.cache ++ [w.next]).length - cap)
      rw [List.length_append, List.length_singleton, List.drop_append_of_le_length hcap]
      exact List.mem_append_right _ (List.mem_singleton_self _)
  covered := by
    intro k hi hk
    rcases Nat.lt_succ_iff_lt_or_eq.mp hk with hk | rfl
    · exact (h.covered k hi hk).imp (List.mem_append_left _) id
    · exact .inl (List.mem_append_right _ (List.mem_singleton_self _))

lemma Sound.skipMany (h : w.Sound cap i) (n : Nat) : (w.skipMany cap n).Sound cap i := by
  induction n generalizing w with
  | zero => exact h
  | succ n ih => exact ih h.skip

lemma Sound.useNext (h : w.Sound cap i) : w.useNext.Sound cap i where
  sorted := h.sorted
  skipped_lt := fun k hk => Nat.lt_succ_of_lt (h.skipped_lt k hk)
  used_lt := by
    intro k hk
    rcases List.mem_cons.mp hk with rfl | hk
    · exact Nat.lt_succ_self _
    · exact Nat.lt_succ_of_lt (h.used_lt k hk)
  cached := h.cached
  length_cache := h.length_cache
  unused := fun k hk => List.not_mem_cons_of_ne_of_not_mem (ne_of_lt (h.cache_lt k hk)) (h.unused k hk)
  kept := fun k hk hunused hsince => h.kept k hk (List.not_mem_of_not_mem_cons hunused) hsince
  covered := by
    intro k hi hk
    rcases Nat.lt_succ_iff_lt_or_eq.mp hk with hk | rfl
    · exact (h.covered k hi hk).imp id (List.mem_cons_of_mem _)
    · exact .inr List.mem_cons_self

lemma Sound.useCached (h : w.Sound cap i) (hk : k ∈ w.cache) : (w.useCached k).Sound cap i where
  sorted := h.sorted
  skipped_lt := h.skipped_lt
  used_lt := by
    intro x hx
    rcases List.mem_cons.mp hx with rfl | hx
    · exact h.cache_lt _ hk
    · exact h.used_lt x hx
  cached := List.erase_sublist.trans h.cached
  length_cache := (List.length_erase_le).trans h.length_cache
  unused := by
    intro x hx
    obtain ⟨hne, hx⟩ := (h.cache_nodup.mem_erase_iff).mp hx
    exact List.not_mem_cons_of_ne_of_not_mem hne (h.unused x hx)
  kept := by
    intro x hx hunused hsince
    have hne := List.ne_of_not_mem_cons hunused
    exact (h.cache_nodup.mem_erase_iff).mpr
      ⟨hne, h.kept x hx (List.not_mem_of_not_mem_cons hunused) hsince⟩
  covered := fun x hi hx => (h.covered x hi hx).imp id (List.mem_cons_of_mem _)

lemma Sound.use (h : w.Sound cap i) (hu : w.use cap k = some w') : w'.Sound cap i := by
  rw [Window.use] at hu
  split at hu
  · split at hu
    · cases hu
      exact h.useCached ‹_›
    · cases hu
  · cases hu
    exact (h.skipMany _).useNext

lemma Sound.use_of_used (h : w.Sound cap i) (hk : k ∈ w.used) : w.use cap k = none := by
  rw [Window.use, if_pos (h.used_lt k hk), if_neg fun hc => h.unused k hc hk]

lemma Sound.use_of_unused (h : w.Sound cap i) (hi : i ≤ k) (hk : k ∉ w.used)
    (hsince : k < w.next → w.skippedSince k < cap) : ∃ w', w.use cap k = some w' := by
  rw [Window.use]
  by_cases hlt : k < w.next
  · have hskipped : k ∈ w.skipped := (h.covered k hi hlt).resolve_right hk
    rw [if_pos hlt, if_pos (h.kept k hskipped hk (hsince hlt))]
    exact ⟨_, rfl⟩
  · rw [if_neg hlt]
    exact ⟨_, rfl⟩

lemma skipMany_next (cap n : Nat) (w : Window) : (w.skipMany cap n).next = w.next + n := by
  induction n generalizing w with
  | zero => rfl
  | succ n ih =>
    rw [skipMany, ih]
    exact Nat.add_right_comm _ _ _

lemma skipMany_used (cap n : Nat) (w : Window) : (w.skipMany cap n).used = w.used := by
  induction n generalizing w with
  | zero => rfl
  | succ n ih => rw [skipMany, ih]; rfl

lemma use_used (h : w.use cap k = some w') : w'.used = k :: w.used := by
  rw [Window.use] at h
  split at h
  · split at h
    · cases h; rfl
    · cases h
  · rename_i hk
    cases h
    change (w.skipMany cap (k - w.next)).next :: (w.skipMany cap (k - w.next)).used = _
    rw [skipMany_next, skipMany_used, Nat.add_sub_cancel' (not_lt.mp hk)]

lemma skipMany_skipped (cap n : Nat) (w : Window) :
    (w.skipMany cap n).skipped = w.skipped ++ List.range' w.next n := by
  induction n generalizing w with
  | zero => exact (List.append_nil _).symm
  | succ n ih =>
    rw [skipMany, ih, List.range'_succ]
    exact List.append_assoc _ _ _

lemma use_skipped (h : w.use cap k = some w') : w'.skipped = w.skipped ++ List.range' w.next (k - w.next) := by
  rw [Window.use] at h
  split at h
  · rename_i hk
    split at h
    · cases h
      rw [Nat.sub_eq_zero_of_le hk.le]
      exact (List.append_nil _).symm
    · cases h
  · cases h
    exact skipMany_skipped cap (k - w.next) w

end Window

end LibSignal.Lib
