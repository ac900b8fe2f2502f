import LibSignal.Crypto.Primitives
import LibSignal.Lib.Runes
import LibSignal.Lib.ExceptBind

/-!
# Usernames

Model of the parsing part of `usernames/usernames.go`. A string is a sequence of bytes.
-/

namespace LibSignal.Usernames
open Chunked (Bytes)
open Lib

inductive UsernameErr where
  | missingSeparator
  | nicknameCannotBeEmpty
  | nicknameCannotStartWithDigit
  | badNicknameCharacter
  | nicknameTooShort
  | nicknameTooLong
  | discriminatorCannotBeEmpty
  | discriminatorCannotBeZero
  | discriminatorCannotBeSingleDigit
  | discriminatorCannotHaveLeadingZeros
  | badDiscriminatorCharacter
  | discriminatorTooLarge
  | randomSource
deriving DecidableEq, Repr

def maxNicknameLength : Nat := 48

structure Username where
  nickname : Bytes
  discriminator : UInt64
deriving DecidableEq, Repr

def dot : UInt8 := 0x2E

def isDigit (b : UInt8) : Bool := 0x30 ≤ b && b ≤ 0x39

def validatePrefix : Bytes → Except UsernameErr Unit
  | [] => .error .nicknameCannotBeEmpty
  | b :: _ => if isDigit b then .error .nicknameCannotStartWithDigit else .ok ()

def validNicknameByte (b : UInt8) : Bool := b == 0x5F || (0x61 ≤ b && b ≤ 0x7A) || isDigit b

def validateNicknameHard (nickname : Bytes) : Except UsernameErr Unit :=
  let lower := toLower nickname
  if ¬ lower.all validNicknameByte then .error .badNicknameCharacter
  else if lower.length > maxNicknameLength then .error .nicknameTooLong
  else .ok ()

def decimalValue (digits : Bytes) : Nat := digits.foldl (fun n b => n * 10 + (b.toNat - 0x30)) 0

def parseUint (digits : Bytes) : Except UsernameErr UInt64 :=
  if decimalValue digits < 2 ^ 64 then .ok (decimalValue digits).toUInt64 else .error .discriminatorTooLarge

def validateDiscriminator : Bytes → Except UsernameErr UInt64
  | [] => .error .discriminatorCannotBeEmpty
  | b :: rest =>
    if ¬ isDigit b then .error .badDiscriminatorCharacter
    else if ¬ rest.all isDigit then .error .badDiscriminatorCharacter
    else do
      let n ← parseUint (b :: rest)
      if n = 0 then .error .discriminatorCannotBeZero
      else if (b :: rest).length = 1 then .error .discriminatorCannotBeSingleDigit
      else if (b :: rest).length = 2 then .ok n
      else if 0x31 ≤ b ∧ b ≤ 0x39 then .ok n
      else .error .discriminatorCannotHaveLeadingZeros

def fromPartsWithoutSoftLimit (nickname discriminator : Bytes) : Except UsernameErr Username := do
  validatePrefix nickname
  let d ← validateDiscriminator discriminator
  validateNicknameHard nickname
  return ⟨nickname, d⟩

def cut (s : Bytes) : Option (Bytes × Bytes) :=
  if dot ∈ s then some (s.take (s.idxOf dot), s.drop (s.idxOf dot + 1)) else none

def lastIndex (s : Bytes) : Nat := s.length - 1 - s.reverse.idxOf dot

def parse (s : Bytes) : Except UsernameErr Username :=
  match cut s with
  | none => .error .missingSeparator
  | some (nickname, discriminator) =>
    if lastIndex s > nickname.length then
      fromPartsWithoutSoftLimit (s.take (lastIndex s)) (s.drop (lastIndex s + 1))
    else fromPartsWithoutSoftLimit nickname discriminator

variable {b : UInt8} {nickname : Bytes}

lemma lastIndex_append {discriminator : Bytes} (h : dot ∉ discriminator) :
    lastIndex (nickname ++ dot :: discriminator) = nickname.length := by
  have hreverse : (nickname ++ dot :: discriminator).reverse =
      discriminator.reverse ++ dot :: nickname.reverse := by simp
  rw [lastIndex, hreverse, List.idxOf_append_of_notMem (mt List.mem_reverse.mp h), List.idxOf_cons_self,
    List.length_reverse, List.length_append, List.length_cons]
  omega

lemma parse_split {discriminator : Bytes} (h : dot ∉ discriminator) :
    parse (nickname ++ dot :: discriminator) = fromPartsWithoutSoftLimit nickname discriminator := by
  have htake : (nickname ++ dot :: discriminator).take nickname.length = nickname := List.take_left
  have hdrop : (nickname ++ dot :: discriminator).drop (nickname.length + 1) = discriminator := by
    rw [← List.drop_drop, List.drop_left, List.drop_one, List.tail_cons]
  have hfirst : (nickname ++ dot :: discriminator).idxOf dot ≤ nickname.length := by
    rw [List.idxOf_append]
    split
    · exact (List.idxOf_lt_length_iff.mpr ‹_›).le
    · rw [List.idxOf_cons_self, Nat.zero_add]
  rw [parse, cut, if_pos (by simp)]
  dsimp only
  rw [lastIndex_append h]
  split
  · rw [htake, hdrop]
  · -- the first dot is the last one
    rename_i hle
    rw [List.length_take, List.length_append, List.length_cons] at hle
    have heq : (nickname ++ dot :: discriminator).idxOf dot = nickname.length := by omega
    rw [heq, htake, hdrop]

lemma parse_missing {s : Bytes} (h : dot ∉ s) : parse s = .error .missingSeparator := by
  rw [parse, cut, if_neg h]

lemma exists_last_dot {s : Bytes} (h : dot ∈ s) :
    ∃ nickname discriminator, s = nickname ++ dot :: discriminator ∧ dot ∉ discriminator := by
  induction s with
  | nil => cases h
  | cons b s ih =>
    by_cases hs : dot ∈ s
    · obtain ⟨nickname, discriminator, rfl, hd⟩ := ih hs
      exact ⟨b :: nickname, discriminator, rfl, hd⟩
    · obtain rfl := (List.mem_cons.mp h).resolve_right hs
      exact ⟨[], s, rfl, hs⟩

/-! ## What the checks accept -/

lemma validatePrefix_ok :
    validatePrefix nickname = .ok () ↔ ∃ b rest, nickname = b :: rest ∧ isDigit b = false := by
  cases nickname with
  | nil => exact ⟨nofun, nofun⟩
  | cons b rest =>
    rw [validatePrefix]
    split
    · rename_i hdigit
      refine ⟨nofun, fun ⟨_, _, heq, h⟩ => ?_⟩
      cases heq
      rw [hdigit] at h
      cases h
    · rename_i hdigit
      exact ⟨fun _ => ⟨b, rest, rfl, Bool.eq_false_iff.mpr hdigit⟩, fun _ => rfl⟩

lemma validateNicknameHard_ok : validateNicknameHard nickname = .ok () ↔
      (∀ b ∈ toLower nickname, validNicknameByte b = true) ∧ (toLower nickname).length ≤ maxNicknameLength := by
  rw [validateNicknameHard, ← List.all_eq_true]
  split
  · rename_i h
    exact ⟨nofun, fun h' => absurd h'.1 h⟩
  · rename_i h
    split
    · rename_i hlong
      exact ⟨nofun, fun h' => absurd h'.2 (Nat.not_le.mpr hlong)⟩
    · rename_i hshort
      exact ⟨fun _ => ⟨not_not.mp h, Nat.not_lt.mp hshort⟩, fun _ => rfl⟩

lemma foldl_decimal (l : Bytes) (n : Nat) :
    l.foldl (fun n b => n * 10 + (b.toNat - 0x30)) n = n * 10 ^ l.length + decimalValue l := by
  induction l generalizing n with
  | nil => simp [decimalValue]
  | cons a l ih =>
    have hvalue : decimalValue (a :: l) = (0 * 10 + (a.toNat - 0x30)) * 10 ^ l.length + decimalValue l :=
      ih _
    rw [List.foldl_cons, ih, hvalue, List.length_cons]
    ring

lemma decimalValue_cons (b : UInt8) (rest : Bytes) :
    decimalValue (b :: rest) = (b.toNat - 0x30) * 10 ^ rest.length + decimalValue rest := by
  rw [decimalValue, List.foldl_cons, foldl_decimal, Nat.zero_mul, Nat.zero_add]

lemma isDigit_iff : isDigit b = true ↔ 0x30 ≤ b.toNat ∧ b.toNat ≤ 0x39 := by
  rw [isDigit, Bool.and_eq_true, decide_eq_true_iff, decide_eq_true_iff]
  rfl

lemma decimalValue_two {a : UInt8} : decimalValue [a, b] = (a.toNat - 0x30) * 10 + (b.toNat - 0x30) := by
  simp [decimalValue]

/-- A discriminator is two digits that are not both zero, or more that start with another digit than zero
and fit 64 bits. -/
def IsDiscriminator (d : Bytes) : Prop :=
  (∀ b ∈ d, isDigit b = true) ∧
    (d.length = 2 ∧ d ≠ [0x30, 0x30] ∨ 3 ≤ d.length ∧ d.head? ≠ some 0x30 ∧ decimalValue d ≤ 2 ^ 64 - 1)

lemma parseUint_ok {d : Bytes} {n : UInt64} :
    parseUint d = .ok n ↔ decimalValue d < 2 ^ 64 ∧ n = (decimalValue d).toUInt64 := by
  rw [parseUint]
  split
  · rename_i h
    exact ⟨fun heq => by cases heq; exact ⟨h, rfl⟩, fun h' => by rw [h'.2]⟩
  · rename_i h
    exact ⟨nofun, fun h' => absurd h'.1 h⟩

lemma toUInt64_eq_zero {n : Nat} (h : n < 2 ^ 64) : n.toUInt64 = 0 ↔ n = 0 := by
  rw [← UInt64.toNat_inj]
  show n % 2 ^ 64 = 0 ↔ n = 0
  rw [Nat.mod_eq_of_lt h]

lemma validateDiscriminator_cons {rest : Bytes} : (∃ n, validateDiscriminator (b :: rest) = .ok n) ↔
      (∀ c ∈ b :: rest, isDigit c = true) ∧ decimalValue (b :: rest) < 2 ^ 64 ∧
        decimalValue (b :: rest) ≠ 0 ∧ (rest.length = 1 ∨ 2 ≤ rest.length ∧ 0x31 ≤ b.toNat) := by
  rw [validateDiscriminator, List.forall_mem_cons, ← List.all_eq_true]
  constructor
  · rintro ⟨n, h⟩
    split at h
    · cases h
    · rename_i hb
      split at h
      · cases h
      · rename_i hrest
        obtain ⟨n, hn, h⟩ := bind_eq_ok h
        obtain ⟨hlt, rfl⟩ := parseUint_ok.mp hn
        simp only [toUInt64_eq_zero hlt, List.length_cons] at h
        refine ⟨⟨not_not.mp hb, not_not.mp hrest⟩, hlt, ?_⟩
        split_ifs at h with hzero hone htwo hfirst
        · exact ⟨hzero, .inl (by omega)⟩
        · have hb1 : 0x31 ≤ b.toNat := hfirst.1
          exact ⟨hzero, .inr ⟨by omega, hb1⟩⟩
  · rintro ⟨⟨hb, hrest⟩, hlt, hzero, hlength⟩
    have hb1 := (isDigit_iff.mp hb).2
    have hone : ¬ (b :: rest).length = 1 := by
      rw [List.length_cons]
      omega
    rw [if_neg (not_not.mpr hb), if_neg (not_not.mpr hrest), parseUint_ok.mpr ⟨hlt, rfl⟩, ok_bind,
      if_neg (mt (toUInt64_eq_zero hlt).mp hzero), if_neg hone, List.length_cons]
    rcases hlength with hone | ⟨htwo, hfirst⟩
    · exact ⟨_, if_pos (by omega)⟩
    · rw [if_neg (by omega), if_pos ⟨hfirst, hb1⟩]
      exact ⟨_, rfl⟩

lemma validateDiscriminator_ok {d : Bytes} : (∃ n, validateDiscriminator d = .ok n) ↔ IsDiscriminator d := by
  cases d with
  | nil => exact ⟨nofun, fun h => h.2.elim nofun nofun⟩
  | cons b rest =>
    rw [validateDiscriminator_cons, IsDiscriminator, List.head?_cons, List.length_cons]
    refine and_congr_right fun hdigits => ?_
    have hb := isDigit_iff.mp (hdigits b List.mem_cons_self)
    have hfirst : some b ≠ some 0x30 ↔ 0x31 ≤ b.toNat := by
      rw [Ne, Option.some.injEq, ← UInt8.toNat_inj]
      show ¬ b.toNat = 0x30 ↔ _
      omega
    rw [hfirst]
    match rest, hdigits with
    | [], _ => simp
    | [c], hdigits =>
      have hc := isDigit_iff.mp (hdigits c (by simp))
      have hzeros : [b, c] ≠ [0x30, 0x30] ↔ decimalValue [b, c] ≠ 0 := by
        rw [decimalValue_two, Ne, List.cons.injEq, List.cons.injEq, ← UInt8.toNat_inj, ← UInt8.toNat_inj]
        show ¬ (b.toNat = 0x30 ∧ c.toNat = 0x30 ∧ _) ↔ _
        simp only [and_true]
        omega
      have hsmall : decimalValue [b, c] < 2 ^ 64 := by
        rw [decimalValue_two]
        omega
      rw [hzeros]
      refine ⟨fun h => .inl ⟨rfl, h.2.1⟩, ?_⟩
      rintro (⟨_, hzero⟩ | ⟨hlong, _⟩)
      · exact ⟨hsmall, hzero, .inl rfl⟩
      · exact absurd hlong (by simp)
    | c :: c' :: rest, _ =>
      have hpositive : 0x31 ≤ b.toNat → decimalValue (b :: c :: c' :: rest) ≠ 0 := by
        intro hb1
        rw [decimalValue_cons]
        have hpow : 0 < 10 ^ (c :: c' :: rest).length := Nat.pow_pos (by decide)
        have hdigit : 0 < b.toNat - 0x30 := by omega
        have hprod := Nat.mul_pos hdigit hpow
        omega
      simp only [List.length_cons]
      constructor
      · rintro ⟨hlt, _, hlength⟩
        exact .inr ⟨by omega, by omega, by omega⟩
      · rintro (⟨h, _⟩ | ⟨_, hb1, hle⟩)
        · omega
        · exact ⟨by omega, hpositive hb1, .inr ⟨by omega, hb1⟩⟩

end LibSignal.Usernames
