import Mathlib.Data.List.Lex
import Mathlib.Data.UInt
import Mathlib.Tactic.Linarith

/-!
# The order of byte strings

`compareBytes` compares byte by byte, with a proper start of a string before it (`bytes.Compare`).
-/

namespace LibSignal.Lib

def compareBytes : List UInt8 → List UInt8 → Int
  | [], [] => 0
  | [], _ :: _ => -1
  | _ :: _, [] => 1
  | a :: as, b :: bs => if a < b then -1 else if b < a then 1 else compareBytes as bs

lemma compareBytes_neg (a b : List UInt8) : compareBytes b a = -compareBytes a b := by
  induction a generalizing b with
  | nil => cases b <;> rfl
  | cons x a ih =>
    cases b with
    | nil => rfl
    | cons y b =>
      rw [compareBytes, compareBytes]
      by_cases hxy : x < y
      · rw [if_pos hxy, if_neg (UInt8.lt_asymm hxy), if_pos hxy]
        rfl
      · by_cases hyx : y < x
        · rw [if_pos hyx, if_neg hxy, if_pos hyx]
        · rw [if_neg hyx, if_neg hxy, if_neg hxy, if_neg hyx, ih]

variable {a b : List UInt8}

lemma compareBytes_eq_zero : compareBytes a b = 0 ↔ a = b := by
  induction a generalizing b with
  | nil =>
    cases b with
    | nil => exact ⟨fun _ => rfl, fun _ => rfl⟩
    | cons y b => exact ⟨nofun, nofun⟩
  | cons x a ih =>
    cases b with
    | nil => exact ⟨nofun, nofun⟩
    | cons y b =>
      rw [compareBytes, List.cons.injEq]
      split
      · rename_i hxy
        exact ⟨nofun, fun h => absurd (h.1 ▸ hxy) (UInt8.lt_irrefl _)⟩
      · split
        · rename_i hyx
          exact ⟨nofun, fun h => absurd (h.1 ▸ hyx) (UInt8.lt_irrefl _)⟩
        · rename_i hxy hyx
          have heq : x = y := UInt8.le_antisymm (UInt8.not_lt.mp hyx) (UInt8.not_lt.mp hxy)
          exact ⟨fun h => ⟨heq, ih.mp h⟩, fun h => ih.mpr h.2⟩

lemma compareBytes_lt : compareBytes a b < 0 ↔ a < b := by
  induction a generalizing b with
  | nil =>
    cases b with
    | nil => exact ⟨fun h => absurd h (lt_irrefl _), fun h => absurd h (List.not_lt_nil [])⟩
    | cons y b => exact ⟨fun _ => List.nil_lt_cons y b, fun _ => neg_one_lt_zero⟩
  | cons x a ih =>
    cases b with
    | nil => exact ⟨fun h => absurd h (show ¬ (1 : Int) < 0 by decide), fun h => absurd h (List.not_lt_nil _)⟩
    | cons y b =>
      rw [compareBytes, List.cons_lt_cons_iff]
      split
      · rename_i hxy
        exact ⟨fun _ => .inl hxy, fun _ => neg_one_lt_zero⟩
      · rename_i hxy
        split
        · rename_i hyx
          refine ⟨fun h => absurd h (by decide), ?_⟩
          rintro (h | ⟨rfl, _⟩)
          · exact absurd h hxy
          · exact absurd hyx hxy
        · rename_i hyx
          have heq : x = y := UInt8.le_antisymm (UInt8.not_lt.mp hyx) (UInt8.not_lt.mp hxy)
          rw [ih]
          exact ⟨fun h => .inr ⟨heq, h⟩, fun h => h.elim (fun h => absurd h hxy) And.right⟩

lemma compareBytes_trans {c : List UInt8} (hab : compareBytes a b ≤ 0) (hbc : compareBytes b c ≤ 0) :
    compareBytes a c ≤ 0 := by
  rcases hab.lt_or_eq with hab | hab
  · rcases hbc.lt_or_eq with hbc | hbc
    · exact (compareBytes_lt.mpr (List.lt_trans (compareBytes_lt.mp hab) (compareBytes_lt.mp hbc))).le
    · rw [← compareBytes_eq_zero.mp hbc]
      exact hab.le
  · rw [compareBytes_eq_zero.mp hab]
    exact hbc

end LibSignal.Lib
