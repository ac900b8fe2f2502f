import LibSignal.Usernames.Grammar
import LibSignal.Lib.Decimal

/-!
# Formatting usernames

The text of a username and the soft limits on a nickname, from `usernames/usernames.go`.
-/

namespace LibSignal.Usernames
open Chunked (Bytes)
open Lib

structure NicknameLimits where
  min : Int
  max : Int
deriving DecidableEq, Repr

def defaultNicknameLimits : NicknameLimits := ⟨3, 32⟩

/-- Limits from two bounds; `none` is a panic. -/
def newNicknameLimits (minLen maxLen : Int) : Option NicknameLimits :=
  if maxLen > maxNicknameLength then none
  else if minLen ≥ maxLen then none
  else some ⟨minLen, maxLen⟩

def NicknameLimits.validate (l : NicknameLimits) (n : Nat) : Except UsernameErr Unit :=
  if n < l.min then .error .nicknameTooShort
  else if n > l.max then .error .nicknameTooLong
  else .ok ()

def validateNickname (nickname : Bytes) (limits : NicknameLimits) : Except UsernameErr Unit := do
  validatePrefix nickname
  validateNicknameHard nickname
  limits.validate nickname.length

def fromParts (nickname discriminator : Bytes) (limits : NicknameLimits) : Except UsernameErr Username := do
  let u ← fromPartsWithoutSoftLimit nickname discriminator
  limits.validate nickname.length
  return u

def formatParts (nickname : Bytes) (discriminator : Nat) : Bytes :=
  nickname ++ dot :: decimalPadded 2 discriminator

def Username.string (u : Username) : Bytes := formatParts u.nickname u.discriminator.toNat

lemma decimalValue_concat (l : Bytes) (b : UInt8) :
    decimalValue (l ++ [b]) = decimalValue l * 10 + (b.toNat - 0x30) := by
  rw [decimalValue, List.foldl_append]
  rfl

lemma decimalValue_decimalFixed {w n : Nat} (h : n < 10 ^ w) : decimalValue (decimalFixed w n) = n := by
  induction w generalizing n with
  | zero => exact (Nat.lt_one_iff.mp h).symm
  | succ w ih =>
    have hdiv : n / 10 < 10 ^ w := Nat.div_lt_of_lt_mul (by rwa [pow_succ'] at h)
    rw [decimalFixed, decimalValue_concat, ih hdiv, toNat_digit (Nat.mod_lt n (by decide))]
    omega

variable {d : Bytes}

lemma decimalValue_lt (h : ∀ b ∈ d, isDigit b = true) : decimalValue d < 10 ^ d.length := by
  induction d using List.reverseRecOn with
  | nil => exact Nat.one_pos
  | append_singleton l b ih =>
    have hl := ih fun c hc => h c (List.mem_append_left _ hc)
    have hb := isDigit_iff.mp (h b (List.mem_append_right _ List.mem_cons_self))
    rw [decimalValue_concat, List.length_append, List.length_singleton, pow_succ]
    omega

lemma decimalFixed_decimalValue (h : ∀ b ∈ d, isDigit b = true) : decimalFixed d.length (decimalValue d) = d := by
  induction d using List.reverseRecOn with
  | nil => rfl
  | append_singleton l b ih =>
    have hl := ih fun c hc => h c (List.mem_append_left _ hc)
    have hb := isDigit_iff.mp (h b (List.mem_append_right _ List.mem_cons_self))
    have hdiv : (decimalValue l * 10 + (b.toNat - 0x30)) / 10 = decimalValue l := by omega
    have hmod : (decimalValue l * 10 + (b.toNat - 0x30)) % 10 = b.toNat - 0x30 := by omega
    have hbyte : (0x30 + (b.toNat - 0x30)).toUInt8 = b := by
      rw [Nat.add_sub_cancel' hb.1]
      exact UInt8.ofNat_toNat
    rw [decimalValue_concat, List.length_append, List.length_singleton, decimalFixed, hdiv, hmod, hl, hbyte]

lemma pow_le_decimalValue {b : UInt8} {rest : Bytes} (hb : 0x31 ≤ b.toNat) :
    10 ^ rest.length ≤ decimalValue (b :: rest) := by
  have hdigit : 1 ≤ b.toNat - 0x30 := by omega
  rw [decimalValue_cons]
  calc 10 ^ rest.length = 1 * 10 ^ rest.length := (Nat.one_mul _).symm
    _ ≤ (b.toNat - 0x30) * 10 ^ rest.length := Nat.mul_le_mul_right _ hdigit
    _ ≤ _ := Nat.le_add_right _ _

/-! ## The accepted spelling -/

lemma decimalPadded_decimalValue (h : IsDiscriminator d) : decimalPadded 2 (decimalValue d) = d := by
  obtain ⟨hdigits, hshape⟩ := h
  have hlt := decimalValue_lt hdigits
  have hwidth : max 2 (decimalWidth (decimalValue d)) = d.length := by
    rcases hshape with ⟨htwo, _⟩ | ⟨hthree, hfirst, _⟩
    · rw [htwo] at hlt ⊢
      exact Nat.max_eq_left (decimalWidth_le hlt (by decide))
    · cases d with
      | nil => exact absurd hthree (by decide)
      | cons b rest =>
        have hb := isDigit_iff.mp (hdigits b List.mem_cons_self)
        have hne : b.toNat ≠ 0x30 := fun heq => hfirst (congrArg some (UInt8.toNat_inj.mp heq))
        rw [decimalWidth_eq (pow_le_decimalValue (by omega)) hlt]
        rw [List.length_cons] at hthree ⊢
        omega
  rw [decimalPadded, hwidth, decimalFixed_decimalValue hdigits]

lemma isDiscriminator_decimalPadded {n : Nat} (hpos : 0 < n) (hlt : n < 2 ^ 64) :
    IsDiscriminator (decimalPadded 2 n) ∧ decimalValue (decimalPadded 2 n) = n := by
  have hfit : n < 10 ^ max 2 (decimalWidth n) :=
    (lt_pow_decimalWidth n).trans_le (Nat.pow_le_pow_right (by decide) (le_max_right _ _))
  have hvalue : decimalValue (decimalPadded 2 n) = n := decimalValue_decimalFixed hfit
  have hdigits : ∀ b ∈ decimalPadded 2 n, isDigit b = true :=
    fun b hb => isDigit_iff.mpr (mem_decimalFixed hb)
  have hlength : (decimalPadded 2 n).length = max 2 (decimalWidth n) := length_decimalFixed _ _
  refine ⟨⟨hdigits, ?_⟩, hvalue⟩
  by_cases hsmall : decimalWidth n ≤ 2
  · refine .inl ⟨by rw [hlength, Nat.max_eq_left hsmall], ?_⟩
    intro hzeros
    rw [hzeros] at hvalue
    exact absurd hvalue (by rw [show decimalValue [0x30, 0x30] = 0 from rfl]; omega)
  · refine .inr ⟨by omega, ?_, by rw [hvalue]; omega⟩
    -- with a leading zero the value would have fewer digits
    intro hzero
    cases hd : decimalPadded 2 n with
    | nil => rw [hd] at hlength; exact absurd hlength (by rw [List.length_nil]; omega)
    | cons b rest =>
      rw [hd, List.head?_cons, Option.some.injEq] at hzero
      subst hzero
      rw [hd] at hvalue hdigits hlength
      have hrest := decimalValue_lt fun c hc => hdigits c (List.mem_cons_of_mem _ hc)
      have hlog : 10 ^ rest.length ≤ n := by
        rw [List.length_cons, Nat.max_eq_right (by omega), decimalWidth] at hlength
        rw [Nat.succ.inj hlength]
        exact Nat.pow_log_le_self 10 (Nat.pos_iff_ne_zero.mp hpos)
      rw [decimalValue_cons] at hvalue
      have hnil : (0x30 : UInt8).toNat - 0x30 = 0 := rfl
      rw [hnil] at hvalue
      omega

lemma validateDiscriminator_value {n : UInt64} (h : validateDiscriminator d = .ok n) :
    IsDiscriminator d ∧ n.toNat = decimalValue d ∧ 0 < decimalValue d := by
  have hdisc := validateDiscriminator_ok.mp ⟨n, h⟩
  refine ⟨hdisc, ?_⟩
  cases d with
  | nil => cases h
  | cons b rest =>
    obtain ⟨_, hlt, hzero, _⟩ := validateDiscriminator_cons.mp ⟨n, h⟩
    have hn : n = (decimalValue (b :: rest)).toUInt64 := by
      rw [validateDiscriminator] at h
      split at h
      · cases h
      · split at h
        · cases h
        · obtain ⟨m, hm, h⟩ := bind_eq_ok h
          obtain ⟨_, rfl⟩ := parseUint_ok.mp hm
          split_ifs at h with h1 h2 h3 h4
          · exact (Except.ok.inj h).symm
          · exact (Except.ok.inj h).symm
    refine ⟨?_, Nat.pos_of_ne_zero hzero⟩
    rw [hn]
    exact Nat.mod_eq_of_lt hlt

lemma parse_inv {s : Bytes} {u : Username} (h : parse s = .ok u) :
    ∃ d, s = u.nickname ++ dot :: d ∧ validatePrefix u.nickname = .ok () ∧
      validateDiscriminator d = .ok u.discriminator ∧ validateNicknameHard u.nickname = .ok () := by
  by_cases hdot : dot ∈ s
  · obtain ⟨n, d, rfl, hd⟩ := exists_last_dot hdot
    rw [parse_split hd] at h
    obtain ⟨_, hstart, h⟩ := bind_eq_ok h
    obtain ⟨m, hm, h⟩ := bind_eq_ok h
    obtain ⟨_, hhard, h⟩ := bind_eq_ok h
    cases h
    exact ⟨d, rfl, hstart, hm, hhard⟩
  · rw [parse_missing hdot] at h
    cases h

lemma string_of_parse {s : Bytes} {u : Username} (h : parse s = .ok u) : u.string = s := by
  obtain ⟨d, rfl, _, hd, _⟩ := parse_inv h
  obtain ⟨hdisc, hvalue, _⟩ := validateDiscriminator_value hd
  rw [Username.string, formatParts, hvalue, decimalPadded_decimalValue hdisc]

end LibSignal.Usernames
