import Mathlib.Data.List.Basic

/-!
# Strings of bytes and their runes

Strings that are sequences of bytes, read as UTF-8.
-/

namespace LibSignal.Lib

def runeError : Nat := 0xFFFD

def sequenceOf (b : UInt8) : Option (Nat × UInt8 × UInt8) :=
  if b < 0xC2 then none
  else if b ≤ 0xDF then some (2, 0x80, 0xBF)
  else if b = 0xE0 then some (3, 0xA0, 0xBF)
  else if b = 0xED then some (3, 0x80, 0x9F)
  else if b ≤ 0xEF then some (3, 0x80, 0xBF)
  else if b = 0xF0 then some (4, 0x90, 0xBF)
  else if b ≤ 0xF3 then some (4, 0x80, 0xBF)
  else if b = 0xF4 then some (4, 0x80, 0x8F)
  else none

def isContinuation (b : UInt8) : Bool := 0x80 ≤ b && b ≤ 0xBF

def decodeSequence (b : UInt8) (rest : List UInt8) : Option (Nat × Nat) :=
  match sequenceOf b, rest with
  | some (2, lo, hi), b1 :: _ =>
    if lo ≤ b1 ∧ b1 ≤ hi then some (b.toNat % 32 * 64 + b1.toNat % 64, 2) else none
  | some (3, lo, hi), b1 :: b2 :: _ =>
    if (lo ≤ b1 ∧ b1 ≤ hi) ∧ isContinuation b2 then
      some ((b.toNat % 16 * 64 + b1.toNat % 64) * 64 + b2.toNat % 64, 3)
    else none
  | some (4, lo, hi), b1 :: b2 :: b3 :: _ =>
    if (lo ≤ b1 ∧ b1 ≤ hi) ∧ isContinuation b2 ∧ isContinuation b3 then
      some (((b.toNat % 8 * 64 + b1.toNat % 64) * 64 + b2.toNat % 64) * 64 + b3.toNat % 64, 4)
    else none
  | _, _ => none

def decodeRune (b : UInt8) (rest : List UInt8) : Nat × Nat :=
  if b < 0x80 then (b.toNat, 1) else (decodeSequence b rest).getD (runeError, 1)

def runesFrom : Nat → List UInt8 → List Nat
  | _, [] => []
  | skip + 1, _ :: rest => runesFrom skip rest
  | 0, b :: rest => (decodeRune b rest).1 :: runesFrom ((decodeRune b rest).2 - 1) rest

def runes (s : List UInt8) : List Nat := runesFrom 0 s

def validFrom : Nat → List UInt8 → Bool
  | _, [] => true
  | skip + 1, _ :: rest => validFrom skip rest
  | 0, b :: rest =>
    if b < 0x80 then validFrom 0 rest
    else
      match decodeSequence b rest with
      | none => false
      | some (_, width) => validFrom (width - 1) rest

def validString (s : List UInt8) : Bool := validFrom 0 s

def appendRune (r : Nat) : List UInt8 :=
  if r < 0x80 then [r.toUInt8]
  else if r < 0x800 then [(0xC0 + r / 64).toUInt8, (0x80 + r % 64).toUInt8]
  else if (0xD800 ≤ r ∧ r ≤ 0xDFFF) ∨ 0x10FFFF < r then [0xEF, 0xBF, 0xBD]
  else if r < 0x10000 then
    [(0xE0 + r / 4096).toUInt8, (0x80 + r / 64 % 64).toUInt8, (0x80 + r % 64).toUInt8]
  else [(0xF0 + r / 262144).toUInt8, (0x80 + r / 4096 % 64).toUInt8, (0x80 + r / 64 % 64).toUInt8,
    (0x80 + r % 64).toUInt8]

/-! ## Lower case -/

/-- Every `stride`-th character from `lo` to `hi` has its lower case at distance `delta`. -/
structure CaseRange where
  lo : Nat
  hi : Nat
  stride : Nat
  delta : Int
deriving DecidableEq, Repr

def caseRanges : List CaseRange :=
  [⟨0x41, 0x5A, 1, 32⟩, ⟨0xC0, 0xD6, 1, 32⟩, ⟨0xD8, 0xDE, 1, 32⟩, ⟨0x100, 0x12E, 2, 1⟩,
    ⟨0x130, 0x130, 1, -199⟩, ⟨0x132, 0x136, 2, 1⟩, ⟨0x139, 0x147, 2, 1⟩, ⟨0x14A, 0x176, 2, 1⟩,
    ⟨0x178, 0x178, 1, -121⟩, ⟨0x179, 0x17D, 2, 1⟩, ⟨0x181, 0x181, 1, 210⟩, ⟨0x182, 0x184, 2, 1⟩,
    ⟨0x186, 0x186, 1, 206⟩, ⟨0x187, 0x187, 1, 1⟩, ⟨0x189, 0x18A, 1, 205⟩, ⟨0x18B, 0x18B, 1, 1⟩,
    ⟨0x18E, 0x18E, 1, 79⟩, ⟨0x18F, 0x18F, 1, 202⟩, ⟨0x190, 0x190, 1, 203⟩, ⟨0x191, 0x191, 1, 1⟩,
    ⟨0x193, 0x193, 1, 205⟩, ⟨0x194, 0x194, 1, 207⟩, ⟨0x196, 0x196, 1, 211⟩, ⟨0x197, 0x197, 1, 209⟩,
    ⟨0x198, 0x198, 1, 1⟩, ⟨0x19C, 0x19C, 1, 211⟩, ⟨0x19D, 0x19D, 1, 213⟩, ⟨0x19F, 0x19F, 1, 214⟩,
    ⟨0x1A0, 0x1A4, 2, 1⟩, ⟨0x1A6, 0x1A6, 1, 218⟩, ⟨0x1A7, 0x1A7, 1, 1⟩, ⟨0x1A9, 0x1A9, 1, 218⟩,
    ⟨0x1AC, 0x1AC, 1, 1⟩, ⟨0x1AE, 0x1AE, 1, 218⟩, ⟨0x1AF, 0x1AF, 1, 1⟩, ⟨0x1B1, 0x1B2, 1, 217⟩,
    ⟨0x1B3, 0x1B5, 2, 1⟩, ⟨0x1B7, 0x1B7, 1, 219⟩, ⟨0x1B8, 0x1B8, 1, 1⟩, ⟨0x1BC, 0x1BC, 1, 1⟩,
    ⟨0x1C4, 0x1C4, 1, 2⟩, ⟨0x1C5, 0x1C5, 1, 1⟩, ⟨0x1C7, 0x1C7, 1, 2⟩, ⟨0x1C8, 0x1C8, 1, 1⟩,
    ⟨0x1CA, 0x1CA, 1, 2⟩, ⟨0x1CB, 0x1DB, 2, 1⟩, ⟨0x1DE, 0x1EE, 2, 1⟩, ⟨0x1F1, 0x1F1, 1, 2⟩,
    ⟨0x1F2, 0x1F4, 2, 1⟩, ⟨0x1F6, 0x1F6, 1, -97⟩, ⟨0x1F7, 0x1F7, 1, -56⟩, ⟨0x1F8, 0x21E, 2, 1⟩,
    ⟨0x220, 0x220, 1, -130⟩, ⟨0x222, 0x232, 2, 1⟩, ⟨0x23A, 0x23A, 1, 10795⟩, ⟨0x23B, 0x23B, 1, 1⟩,
    ⟨0x23D, 0x23D, 1, -163⟩, ⟨0x23E, 0x23E, 1, 10792⟩, ⟨0x241, 0x241, 1, 1⟩, ⟨0x243, 0x243, 1, -195⟩,
    ⟨0x244, 0x244, 1, 69⟩, ⟨0x245, 0x245, 1, 71⟩, ⟨0x246, 0x24E, 2, 1⟩, ⟨0x370, 0x372, 2, 1⟩,
    ⟨0x376, 0x376, 1, 1⟩, ⟨0x37F, 0x37F, 1, 116⟩, ⟨0x386, 0x386, 1, 38⟩, ⟨0x388, 0x38A, 1, 37⟩,
    ⟨0x38C, 0x38C, 1, 64⟩, ⟨0x38E, 0x38F, 1, 63⟩, ⟨0x391, 0x3A1, 1, 32⟩, ⟨0x3A3, 0x3AB, 1, 32⟩,
    ⟨0x3CF, 0x3CF, 1, 8⟩, ⟨0x3D8, 0x3EE, 2, 1⟩, ⟨0x3F4, 0x3F4, 1, -60⟩, ⟨0x3F7, 0x3F7, 1, 1⟩,
    ⟨0x3F9, 0x3F9, 1, -7⟩, ⟨0x3FA, 0x3FA, 1, 1⟩, ⟨0x3FD, 0x3FF, 1, -130⟩, ⟨0x400, 0x40F, 1, 80⟩,
    ⟨0x410, 0x42F, 1, 32⟩, ⟨0x460, 0x480, 2, 1⟩, ⟨0x48A, 0x4BE, 2, 1⟩, ⟨0x4C0, 0x4C0, 1, 15⟩,
    ⟨0x4C1, 0x4CD, 2, 1⟩, ⟨0x4D0, 0x52E, 2, 1⟩, ⟨0x531, 0x556, 1, 48⟩, ⟨0x10A0, 0x10C5, 1, 7264⟩,
    ⟨0x10C7, 0x10C7, 1, 7264⟩, ⟨0x10CD, 0x10CD, 1, 7264⟩, ⟨0x13A0, 0x13EF, 1, 38864⟩,
    ⟨0x13F0, 0x13F5, 1, 8⟩, ⟨0x1C90, 0x1CBA, 1, -3008⟩, ⟨0x1CBD, 0x1CBF, 1, -3008⟩,
    ⟨0x1E00, 0x1E94, 2, 1⟩, ⟨0x1E9E, 0x1E9E, 1, -7615⟩, ⟨0x1EA0, 0x1EFE, 2, 1⟩, ⟨0x1F08, 0x1F0F, 1, -8⟩,
    ⟨0x1F18, 0x1F1D, 1, -8⟩, ⟨0x1F28, 0x1F2F, 1, -8⟩, ⟨0x1F38, 0x1F3F, 1, -8⟩, ⟨0x1F48, 0x1F4D, 1, -8⟩,
    ⟨0x1F59, 0x1F5F, 2, -8⟩, ⟨0x1F68, 0x1F6F, 1, -8⟩, ⟨0x1F88, 0x1F8F, 1, -8⟩, ⟨0x1F98, 0x1F9F, 1, -8⟩,
    ⟨0x1FA8, 0x1FAF, 1, -8⟩, ⟨0x1FB8, 0x1FB9, 1, -8⟩, ⟨0x1FBA, 0x1FBB, 1, -74⟩, ⟨0x1FBC, 0x1FBC, 1, -9⟩,
    ⟨0x1FC8, 0x1FCB, 1, -86⟩, ⟨0x1FCC, 0x1FCC, 1, -9⟩, ⟨0x1FD8, 0x1FD9, 1, -8⟩, ⟨0x1FDA, 0x1FDB, 1, -100⟩,
    ⟨0x1FE8, 0x1FE9, 1, -8⟩, ⟨0x1FEA, 0x1FEB, 1, -112⟩, ⟨0x1FEC, 0x1FEC, 1, -7⟩,
    ⟨0x1FF8, 0x1FF9, 1, -128⟩, ⟨0x1FFA, 0x1FFB, 1, -126⟩, ⟨0x1FFC, 0x1FFC, 1, -9⟩,
    ⟨0x2126, 0x2126, 1, -7517⟩, ⟨0x212A, 0x212A, 1, -8383⟩, ⟨0x212B, 0x212B, 1, -8262⟩,
    ⟨0x2132, 0x2132, 1, 28⟩, ⟨0x2160, 0x216F, 1, 16⟩, ⟨0x2183, 0x2183, 1, 1⟩, ⟨0x24B6, 0x24CF, 1, 26⟩,
    ⟨0x2C00, 0x2C2F, 1, 48⟩, ⟨0x2C60, 0x2C60, 1, 1⟩, ⟨0x2C62, 0x2C62, 1, -10743⟩,
    ⟨0x2C63, 0x2C63, 1, -3814⟩, ⟨0x2C64, 0x2C64, 1, -10727⟩, ⟨0x2C67, 0x2C6B, 2, 1⟩,
    ⟨0x2C6D, 0x2C6D, 1, -10780⟩, ⟨0x2C6E, 0x2C6E, 1, -10749⟩, ⟨0x2C6F, 0x2C6F, 1, -10783⟩,
    ⟨0x2C70, 0x2C70, 1, -10782⟩, ⟨0x2C72, 0x2C72, 1, 1⟩, ⟨0x2C75, 0x2C75, 1, 1⟩,
    ⟨0x2C7E, 0x2C7F, 1, -10815⟩, ⟨0x2C80, 0x2CE2, 2, 1⟩, ⟨0x2CEB, 0x2CED, 2, 1⟩, ⟨0x2CF2, 0x2CF2, 1, 1⟩,
    ⟨0xA640, 0xA66C, 2, 1⟩, ⟨0xA680, 0xA69A, 2, 1⟩, ⟨0xA722, 0xA72E, 2, 1⟩, ⟨0xA732, 0xA76E, 2, 1⟩,
    ⟨0xA779, 0xA77B, 2, 1⟩, ⟨0xA77D, 0xA77D, 1, -35332⟩, ⟨0xA77E, 0xA786, 2, 1⟩, ⟨0xA78B, 0xA78B, 1, 1⟩,
    ⟨0xA78D, 0xA78D, 1, -42280⟩, ⟨0xA790, 0xA792, 2, 1⟩, ⟨0xA796, 0xA7A8, 2, 1⟩,
    ⟨0xA7AA, 0xA7AA, 1, -42308⟩, ⟨0xA7AB, 0xA7AB, 1, -42319⟩, ⟨0xA7AC, 0xA7AC, 1, -42315⟩,
    ⟨0xA7AD, 0xA7AD, 1, -42305⟩, ⟨0xA7AE, 0xA7AE, 1, -42308⟩, ⟨0xA7B0, 0xA7B0, 1, -42258⟩,
    ⟨0xA7B1, 0xA7B1, 1, -42282⟩, ⟨0xA7B2, 0xA7B2, 1, -42261⟩, ⟨0xA7B3, 0xA7B3, 1, 928⟩,
    ⟨0xA7B4, 0xA7C2, 2, 1⟩, ⟨0xA7C4, 0xA7C4, 1, -48⟩, ⟨0xA7C5, 0xA7C5, 1, -42307⟩,
    ⟨0xA7C6, 0xA7C6, 1, -35384⟩, ⟨0xA7C7, 0xA7C9, 2, 1⟩, ⟨0xA7D0, 0xA7D0, 1, 1⟩, ⟨0xA7D6, 0xA7D8, 2, 1⟩,
    ⟨0xA7F5, 0xA7F5, 1, 1⟩, ⟨0xFF21, 0xFF3A, 1, 32⟩, ⟨0x10400, 0x10427, 1, 40⟩, ⟨0x104B0, 0x104D3, 1, 40⟩,
    ⟨0x10570, 0x1057A, 1, 39⟩, ⟨0x1057C, 0x1058A, 1, 39⟩, ⟨0x1058C, 0x10592, 1, 39⟩,
    ⟨0x10594, 0x10595, 1, 39⟩, ⟨0x10C80, 0x10CB2, 1, 64⟩, ⟨0x118A0, 0x118BF, 1, 32⟩,
    ⟨0x16E40, 0x16E5F, 1, 32⟩, ⟨0x1E900, 0x1E921, 1, 34⟩]

def CaseRange.contains (c : CaseRange) (r : Nat) : Bool :=
  c.lo ≤ r && r ≤ c.hi && (r - c.lo) % c.stride == 0

def toLowerRune (r : Nat) : Nat :=
  match caseRanges.find? (·.contains r) with
  | some c => (r + c.delta).toNat
  | none => r

def toLower (s : List UInt8) : List UInt8 := (runes s).flatMap fun r => appendRune (toLowerRune r)

variable {b : UInt8} {r : Nat}

lemma toLowerRune_of_find {c : CaseRange} (h : caseRanges.find? (·.contains r) = some c) :
    toLowerRune r = (r + c.delta).toNat := by
  rw [toLowerRune, h]

lemma toLowerRune_of_none (h : caseRanges.find? (·.contains r) = none) : toLowerRune r = r := by
  rw [toLowerRune, h]

lemma caseRanges_outside : ∀ c ∈ caseRanges, c = ⟨0x41, 0x5A, 1, 32⟩ ∨ 128 ≤ c.lo ∧
    (c = ⟨0x130, 0x130, 1, -199⟩ ∨ c = ⟨0x212A, 0x212A, 1, -8383⟩ ∨ 128 ≤ c.lo + c.delta) := by
  decide +kernel

lemma CaseRange.contains_iff {c : CaseRange} :
    c.contains r = true ↔ (c.lo ≤ r ∧ r ≤ c.hi) ∧ (r - c.lo) % c.stride = 0 := by
  rw [contains, Bool.and_eq_true, Bool.and_eq_true, decide_eq_true_iff, decide_eq_true_iff, beq_iff_eq]

lemma toLowerRune_ascii (hr : r < 128) : toLowerRune r = if 0x41 ≤ r ∧ r ≤ 0x5A then r + 32 else r := by
  cases hfind : caseRanges.find? (·.contains r) with
  | none =>
    rw [toLowerRune_of_none hfind, if_neg]
    intro hletter
    refine List.find?_eq_none.mp hfind ⟨0x41, 0x5A, 1, 32⟩ (by decide) ?_
    exact CaseRange.contains_iff.mpr ⟨hletter, Nat.mod_one _⟩
  | some c =>
    have hcontains := List.find?_some hfind
    obtain ⟨⟨hlo, hhi⟩, _⟩ := CaseRange.contains_iff.mp hcontains
    rcases caseRanges_outside c (List.mem_of_find?_eq_some hfind) with rfl | ⟨hout, _⟩
    · rw [toLowerRune_of_find hfind, if_pos ⟨hlo, hhi⟩]
      rfl
    · omega

lemma toLowerRune_lt (hr : 128 ≤ r) (h : toLowerRune r < 128) : r = 0x130 ∨ r = 0x212A := by
  cases hfind : caseRanges.find? (·.contains r) with
  | none =>
    rw [toLowerRune_of_none hfind] at h
    omega
  | some c =>
    rw [toLowerRune_of_find hfind] at h
    have hcontains := List.find?_some hfind
    obtain ⟨⟨hlo, hhi⟩, _⟩ := CaseRange.contains_iff.mp hcontains
    rcases caseRanges_outside c (List.mem_of_find?_eq_some hfind) with rfl | ⟨_, rfl | rfl | hout⟩
    · dsimp only at hhi
      omega
    · exact .inl (Nat.le_antisymm hhi hlo)
    · exact .inr (Nat.le_antisymm hhi hlo)
    · omega

lemma toLowerRune_dotted : toLowerRune 0x130 = 0x69 := by decide +kernel

lemma toLowerRune_kelvin : toLowerRune 0x212A = 0x6B := by decide +kernel

/-! ## Sequences -/

lemma sequenceOf_some {size : Nat} {lo hi : UInt8} (h : sequenceOf b = some (size, lo, hi)) :
    (size = 2 ∧ 0xC2 ≤ b.toNat ∧ b.toNat ≤ 0xDF ∧ lo = 0x80 ∧ hi = 0xBF) ∨
    (size = 3 ∧ b.toNat = 0xE0 ∧ lo = 0xA0 ∧ hi = 0xBF) ∨
    (size = 3 ∧ 0xE1 ≤ b.toNat ∧ b.toNat ≤ 0xEF ∧ lo = 0x80 ∧ hi ≤ 0xBF) ∨
    (size = 4 ∧ b.toNat = 0xF0 ∧ lo = 0x90 ∧ hi = 0xBF) ∨
    (size = 4 ∧ 0xF1 ≤ b.toNat ∧ b.toNat ≤ 0xF4 ∧ lo = 0x80 ∧ hi ≤ 0xBF) := by
  unfold sequenceOf at h
  simp only [UInt8.lt_iff_toNat_lt, UInt8.le_iff_toNat_le, ← UInt8.toNat_inj] at h
  split_ifs at h with h1 h2 h3 h4 h5 h6 h7 h8 <;> cases h
  · exact .inl ⟨rfl, Nat.not_lt.mp h1, h2, rfl, rfl⟩
  · exact .inr (.inl ⟨rfl, h3, rfl, rfl⟩)
  · exact .inr (.inr (.inl ⟨rfl, by rw [h4]; decide, by rw [h4]; decide, rfl, by decide⟩))
  · refine .inr (.inr (.inl ⟨rfl, ?_, h5, rfl, by decide⟩))
    have h2' : 0xDF < b.toNat := Nat.not_le.mp h2
    have h3' : b.toNat ≠ 0xE0 := h3
    omega
  · exact .inr (.inr (.inr (.inl ⟨rfl, h6, rfl, rfl⟩)))
  · refine .inr (.inr (.inr (.inr ⟨rfl, ?_, ?_, rfl, by decide⟩)))
    · have h5' : 0xEF < b.toNat := Nat.not_le.mp h5
      have h6' : b.toNat ≠ 0xF0 := h6
      omega
    · exact Nat.le_succ_of_le h7
  · exact .inr (.inr (.inr (.inr ⟨rfl, by rw [h8]; decide, by rw [h8]; decide, rfl, by decide⟩)))

lemma isContinuation_iff : isContinuation b = true ↔ 0x80 ≤ b.toNat ∧ b.toNat ≤ 0xBF := by
  rw [isContinuation, Bool.and_eq_true, decide_eq_true_iff, decide_eq_true_iff]
  rfl

lemma decodeSequence_outside {rest : List UInt8} {w : Nat} (h : decodeSequence b rest = some (r, w)) :
    128 ≤ r ∧ (r = 0x130 → b = 0xC4 ∧ ∃ tail, rest = 0xB0 :: tail) ∧
      (r = 0x212A → b = 0xE2 ∧ ∃ tail, rest = 0x84 :: 0xAA :: tail) := by
  unfold decodeSequence at h
  split at h
  · -- two bytes: five bits and six
    rename_i lo hi b1 tail hseq
    split at h
    · rename_i hrange
      cases h
      obtain ⟨_, hlo, hhi, rfl, rfl⟩ : 2 = 2 ∧ 0xC2 ≤ b.toNat ∧ b.toNat ≤ 0xDF ∧ lo = 0x80 ∧ hi = 0xBF := by
        simpa using sequenceOf_some hseq
      have h1 : 0x80 ≤ b1.toNat ∧ b1.toNat ≤ 0xBF := hrange
      refine ⟨by omega, fun hr => ⟨UInt8.toNat_inj.mp ?_, tail, ?_⟩, fun hr => by omega⟩
      · show b.toNat = 0xC4
        omega
      · have hb1 : b1 = 0xB0 := UInt8.toNat_inj.mp (show b1.toNat = 0xB0 by omega)
        rw [hb1]
    · cases h
  · -- three bytes: four bits and twice six
    rename_i lo hi b1 b2 tail hseq
    split at h
    · rename_i hrange
      cases h
      obtain ⟨⟨h1, h1'⟩, h2⟩ := hrange
      have h2 := isContinuation_iff.mp h2
      have hbytes : (0x80 ≤ b1.toNat ∧ b1.toNat ≤ 0xBF) ∧ 0xE0 ≤ b.toNat ∧ b.toNat ≤ 0xEF ∧
          (b.toNat = 0xE0 → 0xA0 ≤ b1.toNat) := by
        rcases sequenceOf_some hseq with h | ⟨_, hb, rfl, rfl⟩ | ⟨_, hb, hb', rfl, hhi⟩ | h | h
        · exact absurd h.1 (by decide)
        · exact ⟨⟨Nat.le_trans (by decide) h1, h1'⟩, by omega, by omega, fun _ => h1⟩
        · exact ⟨⟨h1, UInt8.le_trans h1' hhi⟩, by omega, by omega, fun _ => by omega⟩
        · exact absurd h.1 (by decide)
        · exact absurd h.1 (by decide)
      refine ⟨by omega, fun hr => by omega, fun hr => ⟨UInt8.toNat_inj.mp ?_, tail, ?_⟩⟩
      · show b.toNat = 0xE2
        omega
      · have hb1 : b1 = 0x84 := UInt8.toNat_inj.mp (show b1.toNat = 0x84 by omega)
        have hb2 : b2 = 0xAA := UInt8.toNat_inj.mp (show b2.toNat = 0xAA by omega)
        rw [hb1, hb2]
    · cases h
  · -- four bytes: three bits and three times six
    rename_i lo hi b1 b2 b3 tail hseq
    split at h
    · rename_i hrange
      cases h
      obtain ⟨⟨h1, h1'⟩, h2, h3⟩ := hrange
      have h2 := isContinuation_iff.mp h2
      have h3 := isContinuation_iff.mp h3
      have hbytes : (0x80 ≤ b1.toNat ∧ b1.toNat ≤ 0xBF) ∧ 0xF0 ≤ b.toNat ∧ b.toNat ≤ 0xF4 ∧
          (b.toNat = 0xF0 → 0x90 ≤ b1.toNat) := by
        rcases sequenceOf_some hseq with h | h | h | ⟨_, hb, rfl, rfl⟩ | ⟨_, hb, hb', rfl, hhi⟩
        · exact absurd h.1 (by decide)
        · exact absurd h.1 (by decide)
        · exact absurd h.1 (by decide)
        · exact ⟨⟨Nat.le_trans (by decide) h1, h1'⟩, by omega, by omega, fun _ => h1⟩
        · exact ⟨⟨h1, UInt8.le_trans h1' hhi⟩, by omega, by omega, fun _ => by omega⟩
      exact ⟨by omega, fun hr => by omega, fun hr => by omega⟩
    · cases h
  · cases h

lemma decodeRune_outside (hb : ¬ b < 0x80) (rest : List UInt8) : 128 ≤ (decodeRune b rest).1 ∧
      ((decodeRune b rest).1 = 0x130 → b = 0xC4 ∧ ∃ tail, rest = 0xB0 :: tail) ∧
      ((decodeRune b rest).1 = 0x212A → b = 0xE2 ∧ ∃ tail, rest = 0x84 :: 0xAA :: tail) := by
  rw [decodeRune, if_neg hb]
  cases h : decodeSequence b rest with
  | none => exact ⟨by decide, fun h => absurd h (by decide), fun h => absurd h (by decide)⟩
  | some rw => exact decodeSequence_outside h

@[simp] lemma decodeRune_ascii (hb : b < 0x80) (rest : List UInt8) : decodeRune b rest = (b.toNat, 1) := if_pos hb

lemma toUInt8_outside {n : Nat} (h : 128 ≤ n) (h' : n < 256) : ¬ n.toUInt8 < 0x80 := by
  rw [UInt8.not_lt, UInt8.le_iff_toNat_le]
  show 128 ≤ n % 256
  omega

lemma appendRune_outside (hr : 128 ≤ r) : ∃ b ∈ appendRune r, ¬ b < 0x80 := by
  rw [appendRune, if_neg (by omega)]
  split
  · exact ⟨_, List.mem_cons_self, toUInt8_outside (by omega) (by omega)⟩
  · split
    · exact ⟨_, List.mem_cons_self, by decide⟩
    · split
      · exact ⟨_, List.mem_cons_self, toUInt8_outside (by omega) (by omega)⟩
      · exact ⟨_, List.mem_cons_self, toUInt8_outside (by omega) (by omega)⟩

end LibSignal.Lib
