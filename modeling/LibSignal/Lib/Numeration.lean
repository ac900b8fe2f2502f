import Mathlib.Data.Nat.Init
import Mathlib.Tactic.Ring

/-!
# Bijective numeration

The value of a list of digits `1, …, k` in base `k`, the lowest digit first.
-/

namespace LibSignal.Lib

def bijectiveValue (k : Nat) : List Nat → Nat
  | [] => 0
  | d :: ds => d + k * bijectiveValue k ds

variable {k : Nat}

lemma digit_add_mul_inj {d d' m m' : Nat} (hd : 1 ≤ d ∧ d ≤ k) (hd' : 1 ≤ d' ∧ d' ≤ k)
    (h : d + k * m = d' + k * m') : d = d' ∧ m = m' := by
  have hmod : (d - 1) % k = (d' - 1) % k := by
    have hshift : d - 1 + k * m = d' - 1 + k * m' := by omega
    rw [← Nat.add_mul_mod_self_left (d - 1) k m, hshift, Nat.add_mul_mod_self_left]
  rw [Nat.mod_eq_of_lt (by omega), Nat.mod_eq_of_lt (by omega)] at hmod
  have heq : d = d' := by omega
  subst heq
  exact ⟨rfl, Nat.eq_of_mul_eq_mul_left (by omega) (Nat.add_left_cancel h)⟩

lemma bijectiveValue_inj {ds es : List Nat} (hds : ∀ d ∈ ds, 1 ≤ d ∧ d ≤ k) (hes : ∀ e ∈ es, 1 ≤ e ∧ e ≤ k)
    (h : bijectiveValue k ds = bijectiveValue k es) : ds = es := by
  induction ds generalizing es with
  | nil =>
    cases es with
    | nil => rfl
    | cons e es =>
      have he := (hes e List.mem_cons_self).1
      rw [bijectiveValue, bijectiveValue] at h
      omega
  | cons d ds ih =>
    have hd := hds d List.mem_cons_self
    cases es with
    | nil =>
      rw [bijectiveValue, bijectiveValue] at h
      omega
    | cons e es =>
      obtain ⟨rfl, hrest⟩ := digit_add_mul_inj hd (hes e List.mem_cons_self) h
      rw [ih (fun x hx => hds x (List.mem_cons_of_mem _ hx))
        (fun x hx => hes x (List.mem_cons_of_mem _ hx)) hrest]

lemma bijectiveValue_le {ds : List Nat} (hds : ∀ d ∈ ds, d ≤ k + 1) :
    k * bijectiveValue (k + 1) ds + (k + 1) ≤ (k + 1) ^ (ds.length + 1) := by
  induction ds with
  | nil => simp [bijectiveValue]
  | cons d ds ih =>
    have hd := hds d List.mem_cons_self
    have hrest := ih fun x hx => hds x (List.mem_cons_of_mem _ hx)
    calc k * bijectiveValue (k + 1) (d :: ds) + (k + 1)
        = k * d + (k + 1) + (k + 1) * (k * bijectiveValue (k + 1) ds) := by
          rw [bijectiveValue]
          ring
      _ ≤ k * (k + 1) + (k + 1) + (k + 1) * (k * bijectiveValue (k + 1) ds) := by
          gcongr
      _ = (k + 1) * (k * bijectiveValue (k + 1) ds + (k + 1)) := by ring
      _ ≤ (k + 1) * (k + 1) ^ (ds.length + 1) := Nat.mul_le_mul_left _ hrest
      _ = (k + 1) ^ ((d :: ds).length + 1) := by rw [List.length_cons, pow_succ' (k + 1) (ds.length + 1)]

end LibSignal.Lib
