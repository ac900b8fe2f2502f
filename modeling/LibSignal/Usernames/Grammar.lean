import LibSignal.Usernames.Username

/-!
# The grammar of usernames

A nickname is checked after it was put in lower case, and outside ASCII two characters have an ASCII lower
case.
-/

namespace LibSignal.Usernames
open Chunked (Bytes)
open Lib

def isWordByte (b : UInt8) : Bool := b == 0x5F || (0x61 ≤ b && b ≤ 0x7A) || (0x41 ≤ b && b ≤ 0x5A)

/-- A letter or an underscore, followed by at most 47 letters, digits or underscores. -/
def IsNickname (n : Bytes) : Prop :=
  ∃ b rest, n = b :: rest ∧ isWordByte b = true ∧ rest.length ≤ 47 ∧
    ∀ c ∈ rest, isWordByte c = true ∨ isDigit c = true

def IsUsername (s : Bytes) : Prop :=
  ∃ nickname discriminator, s = nickname ++ dot :: discriminator ∧ IsNickname nickname ∧
    IsDiscriminator discriminator

def foldLetters : Bytes → Bytes
  | 0xC4 :: 0xB0 :: rest => 0x69 :: foldLetters rest
  | 0xE2 :: 0x84 :: 0xAA :: rest => 0x6B :: foldLetters rest
  | b :: rest => b :: foldLetters rest
  | [] => []

variable {b : UInt8} {r : Nat} {s : Bytes}

lemma foldLetters_cons {rest : Bytes} (h1 : ∀ tail, b = 0xC4 → rest = 0xB0 :: tail → False)
    (h2 : ∀ tail, b = 0xE2 → rest = 0x84 :: 0xAA :: tail → False) :
    foldLetters (b :: rest) = b :: foldLetters rest := by
  rw [foldLetters]
  · exact h1
  · exact h2

/-! ## Bytes and runes of nicknames -/

lemma isWordByte_iff : isWordByte b = true ↔
    b.toNat = 0x5F ∨ (0x61 ≤ b.toNat ∧ b.toNat ≤ 0x7A) ∨ (0x41 ≤ b.toNat ∧ b.toNat ≤ 0x5A) := by
  rw [isWordByte, Bool.or_eq_true, Bool.or_eq_true, Bool.and_eq_true, Bool.and_eq_true, beq_iff_eq,
    ← UInt8.toNat_inj, decide_eq_true_iff, decide_eq_true_iff, decide_eq_true_iff, decide_eq_true_iff, or_assoc]
  rfl

lemma validNicknameByte_iff : validNicknameByte b = true ↔
    b.toNat = 0x5F ∨ (0x61 ≤ b.toNat ∧ b.toNat ≤ 0x7A) ∨ (0x30 ≤ b.toNat ∧ b.toNat ≤ 0x39) := by
  rw [validNicknameByte, Bool.or_eq_true, Bool.or_eq_true, Bool.and_eq_true, isDigit_iff, beq_iff_eq,
    ← UInt8.toNat_inj, decide_eq_true_iff, decide_eq_true_iff, or_assoc]
  rfl

def nicknameRune (r : Nat) : Bool := (appendRune (toLowerRune r)).all validNicknameByte

lemma appendRune_ascii (hr : r < 128) : appendRune r = [r.toUInt8] := if_pos hr

lemma nicknameRune_ascii (hb : b < 0x80) :
    nicknameRune b.toNat = true ↔ isWordByte b = true ∨ isDigit b = true := by
  have hlt : b.toNat < 128 := hb
  rw [nicknameRune, toLowerRune_ascii hlt, isWordByte_iff, isDigit_iff]
  split
  · rw [appendRune_ascii (by omega), List.all_cons, List.all_nil, Bool.and_true, validNicknameByte_iff]
    show (b.toNat + 32) % 256 = _ ∨ (_ ≤ (b.toNat + 32) % 256 ∧ (b.toNat + 32) % 256 ≤ _) ∨
      (_ ≤ (b.toNat + 32) % 256 ∧ (b.toNat + 32) % 256 ≤ _) ↔ _
    omega
  · rw [appendRune_ascii hlt, List.all_cons, List.all_nil, Bool.and_true, validNicknameByte_iff]
    show b.toNat % 256 = _ ∨ (_ ≤ b.toNat % 256 ∧ b.toNat % 256 ≤ _) ∨
      (_ ≤ b.toNat % 256 ∧ b.toNat % 256 ≤ _) ↔ _
    omega

lemma nicknameRune_outside (hr : 128 ≤ r) (h : nicknameRune r = true) : r = 0x130 ∨ r = 0x212A := by
  refine toLowerRune_lt hr ?_
  by_contra hlower
  obtain ⟨b, hmem, hb⟩ := appendRune_outside (Nat.not_lt.mp hlower)
  have hvalid := validNicknameByte_iff.mp (List.all_eq_true.mp h b hmem)
  have hout : ¬ b.toNat < 0x80 := hb
  omega

lemma length_lower (h : nicknameRune r = true) : (appendRune (toLowerRune r)).length = 1 := by
  by_cases hlower : toLowerRune r < 128
  · rw [appendRune_ascii hlower, List.length_singleton]
  · obtain ⟨b, hmem, hb⟩ := appendRune_outside (Nat.not_lt.mp hlower)
    have hvalid := validNicknameByte_iff.mp (List.all_eq_true.mp h b hmem)
    have hout : ¬ b.toNat < 0x80 := hb
    omega

def isNameByte (b : UInt8) : Bool := isWordByte b || isDigit b

lemma not_isNameByte_outside (hb : ¬ b < 0x80) : isNameByte b = false := by
  have hout : ¬ b.toNat < 0x80 := hb
  rw [Bool.eq_false_iff, Ne, isNameByte, Bool.or_eq_true, isWordByte_iff, isDigit_iff]
  omega

lemma runes_iff (s : Bytes) :
    ((∀ r ∈ runes s, nicknameRune r = true) ↔ ∀ b ∈ foldLetters s, isNameByte b = true) ∧
      ((∀ r ∈ runes s, nicknameRune r = true) → (runes s).length = (foldLetters s).length) := by
  induction s using foldLetters.induct with
  | case1 rest ih =>
    have hrunes : runes (0xC4 :: 0xB0 :: rest) = 0x130 :: runes rest := rfl
    have hdotted : nicknameRune 0x130 = true := by decide +kernel
    have hi : isNameByte 0x69 = true := by decide
    rw [hrunes, foldLetters, List.forall_mem_cons, List.forall_mem_cons, List.length_cons, List.length_cons]
    exact ⟨by simp only [hdotted, hi, true_and]; exact ih.1, fun h => congrArg (· + 1) (ih.2 h.2)⟩
  | case2 rest ih =>
    have hrunes : runes (0xE2 :: 0x84 :: 0xAA :: rest) = 0x212A :: runes rest := rfl
    have hkelvin : nicknameRune 0x212A = true := by decide +kernel
    have hk : isNameByte 0x6B = true := by decide
    rw [hrunes, foldLetters, List.forall_mem_cons, List.forall_mem_cons, List.length_cons, List.length_cons]
    exact ⟨by simp only [hkelvin, hk, true_and]; exact ih.1, fun h => congrArg (· + 1) (ih.2 h.2)⟩
  | case3 b rest h1 h2 ih =>
    rw [foldLetters_cons h1 h2, List.forall_mem_cons, List.length_cons]
    by_cases hb : b < 0x80
    · have hrunes : runes (b :: rest) = b.toNat :: runes rest := by
        rw [runes, runesFrom, decodeRune_ascii hb]
        rfl
      rw [hrunes, List.forall_mem_cons, nicknameRune_ascii hb, List.length_cons]
      refine ⟨and_congr ?_ ih.1, fun h => congrArg (· + 1) (ih.2 h.2)⟩
      rw [isNameByte, Bool.or_eq_true]
    · -- a rune outside ASCII that has an ASCII lower case would have been folded
      have hrune : nicknameRune (decodeRune b rest).1 = false := by
        rw [Bool.eq_false_iff]
        intro h
        obtain ⟨hout, hdotted, hkelvin⟩ := decodeRune_outside hb rest
        rcases nicknameRune_outside hout h with hr | hr
        · obtain ⟨rfl, tail, rfl⟩ := hdotted hr
          exact h1 tail rfl rfl
        · obtain ⟨rfl, tail, rfl⟩ := hkelvin hr
          exact h2 tail rfl rfl
      rw [runes, runesFrom, List.forall_mem_cons, hrune, not_isNameByte_outside hb]
      exact ⟨⟨fun h => (nomatch h.1), fun h => (nomatch h.1)⟩, fun h => (nomatch h.1)⟩
  | case4 => exact ⟨⟨nofun, nofun⟩, fun _ => rfl⟩

lemma length_toLower (h : ∀ r ∈ runes s, nicknameRune r = true) : (toLower s).length = (runes s).length := by
  rw [toLower]
  generalize runes s = rs at h
  induction rs with
  | nil => rfl
  | cons r rs ih =>
    rw [List.forall_mem_cons] at h
    rw [List.flatMap_cons, List.length_append, length_lower h.1, ih h.2, List.length_cons, Nat.add_comm]

lemma validateNicknameHard_iff (s : Bytes) : validateNicknameHard s = .ok () ↔
      (∀ b ∈ foldLetters s, isNameByte b = true) ∧ (foldLetters s).length ≤ maxNicknameLength := by
  have hrunes : (∀ b ∈ toLower s, validNicknameByte b = true) ↔ ∀ r ∈ runes s, nicknameRune r = true := by
    rw [toLower, List.forall_mem_flatMap]
    exact forall₂_congr fun r _ => List.all_eq_true.symm
  rw [validateNicknameHard_ok, hrunes, ← (runes_iff s).1]
  refine and_congr_right fun h => ?_
  rw [length_toLower h, (runes_iff s).2 h]

lemma validatePrefix_fold (s : Bytes) :
    validatePrefix s = .ok () ↔ ∃ b rest, foldLetters s = b :: rest ∧ isDigit b = false := by
  rw [validatePrefix_ok]
  induction s using foldLetters.induct with
  | case1 rest ih => exact ⟨fun _ => ⟨_, _, rfl, rfl⟩, fun _ => ⟨_, _, rfl, rfl⟩⟩
  | case2 rest ih => exact ⟨fun _ => ⟨_, _, rfl, rfl⟩, fun _ => ⟨_, _, rfl, rfl⟩⟩
  | case3 b rest h1 h2 ih =>
    rw [foldLetters_cons h1 h2]
    constructor
    · rintro ⟨_, _, heq, hb⟩
      cases heq
      exact ⟨_, _, rfl, hb⟩
    · rintro ⟨_, _, heq, hb⟩
      cases heq
      exact ⟨_, _, rfl, hb⟩
  | case4 => exact ⟨nofun, nofun⟩

lemma nickname_iff (s : Bytes) :
    (validatePrefix s = .ok () ∧ validateNicknameHard s = .ok ()) ↔ IsNickname (foldLetters s) := by
  rw [validatePrefix_fold, validateNicknameHard_iff, IsNickname]
  constructor
  · rintro ⟨⟨b, rest, heq, hdigit⟩, hall, hlength⟩
    rw [heq, List.forall_mem_cons, isNameByte, hdigit, Bool.or_false] at hall
    rw [heq, List.length_cons] at hlength
    exact ⟨b, rest, heq, hall.1, Nat.le_of_succ_le_succ hlength,
      fun c hc => Bool.or_eq_true_iff.mp (hall.2 c hc)⟩
  · rintro ⟨b, rest, heq, hword, hlength, hall⟩
    have hdigit : isDigit b = false := by
      rw [Bool.eq_false_iff, Ne, isDigit_iff]
      have := isWordByte_iff.mp hword
      omega
    rw [heq, List.forall_mem_cons, List.length_cons]
    exact ⟨⟨b, rest, rfl, hdigit⟩, ⟨Bool.or_eq_true_iff.mpr (.inl hword),
      fun c hc => Bool.or_eq_true_iff.mpr (hall c hc)⟩, Nat.succ_le_succ hlength⟩

/-! ## Usernames -/

lemma foldLetters_dot (nickname discriminator : Bytes) : foldLetters (nickname ++ dot :: discriminator) =
      foldLetters nickname ++ dot :: foldLetters discriminator := by
  induction nickname using foldLetters.induct with
  | case1 rest ih => exact congrArg (0x69 :: ·) ih
  | case2 rest ih => exact congrArg (0x6B :: ·) ih
  | case3 b rest h1 h2 ih =>
    -- no sequence that is folded has the dot in it
    have h1' : ∀ tail, b = 0xC4 → rest ++ dot :: discriminator = 0xB0 :: tail → False := by
      intro tail hb heq
      cases rest with
      | nil => exact absurd (List.cons.inj heq).1 (by decide)
      | cons x xs => exact h1 xs hb (congrArg (· :: xs) (List.cons.inj heq).1)
    have h2' : ∀ tail, b = 0xE2 → rest ++ dot :: discriminator = 0x84 :: 0xAA :: tail → False := by
      intro tail hb heq
      cases rest with
      | nil => exact absurd (List.cons.inj heq).1 (by decide)
      | cons x xs =>
        obtain ⟨hx, hxs⟩ := List.cons.inj heq
        cases xs with
        | nil => exact absurd (List.cons.inj hxs).1 (by decide)
        | cons y ys => exact h2 ys hb (by rw [hx, (List.cons.inj hxs).1])
    rw [List.cons_append, foldLetters_cons h1' h2', foldLetters_cons h1 h2, ih, List.cons_append]
  | case4 => rfl

lemma mem_foldLetters (h : b ∈ foldLetters s) : b = 0x69 ∨ b = 0x6B ∨ b ∈ s := by
  induction s using foldLetters.induct with
  | case1 rest ih =>
    rw [foldLetters, List.mem_cons] at h
    rcases h with h | h
    · exact .inl h
    · exact (ih h).imp id (Or.imp id fun h => List.mem_cons_of_mem _ (List.mem_cons_of_mem _ h))
  | case2 rest ih =>
    rw [foldLetters, List.mem_cons] at h
    rcases h with h | h
    · exact .inr (.inl h)
    · exact (ih h).imp id (Or.imp id fun h =>
        List.mem_cons_of_mem _ (List.mem_cons_of_mem _ (List.mem_cons_of_mem _ h)))
  | case3 a rest h1 h2 ih =>
    rw [foldLetters_cons h1 h2, List.mem_cons] at h
    rcases h with rfl | h
    · exact .inr (.inr List.mem_cons_self)
    · exact (ih h).imp id (Or.imp id (List.mem_cons_of_mem _))
  | case4 => cases h

lemma dot_mem_foldLetters (h : dot ∈ foldLetters s) : dot ∈ s :=
  ((mem_foldLetters h).resolve_left (by decide)).resolve_left (by decide)

lemma foldLetters_ascii (h : ∀ b ∈ s, b < 0x80) : foldLetters s = s := by
  induction s using foldLetters.induct with
  | case1 rest ih => exact absurd (h 0xC4 List.mem_cons_self) (by decide)
  | case2 rest ih => exact absurd (h 0xE2 List.mem_cons_self) (by decide)
  | case3 b rest h1 h2 ih =>
    rw [foldLetters_cons h1 h2, ih fun c hc => h c (List.mem_cons_of_mem _ hc)]
  | case4 => rfl

lemma foldLetters_digits (h : ∀ b ∈ foldLetters s, isDigit b = true) : foldLetters s = s := by
  induction s using foldLetters.induct with
  | case1 rest ih => exact absurd (h 0x69 List.mem_cons_self) (by decide)
  | case2 rest ih => exact absurd (h 0x6B List.mem_cons_self) (by decide)
  | case3 b rest h1 h2 ih =>
    rw [foldLetters_cons h1 h2] at h ⊢
    rw [ih fun c hc => h c (List.mem_cons_of_mem _ hc)]
  | case4 => rfl

lemma append_dot_inj {n d n' d' : Bytes} (h : n ++ dot :: d = n' ++ dot :: d') (hd : dot ∉ d)
    (hd' : dot ∉ d') : n = n' ∧ d = d' := by
  have hlength := congrArg lastIndex h
  rw [lastIndex_append hd, lastIndex_append hd'] at hlength
  obtain ⟨rfl, htail⟩ := List.append_inj h hlength
  exact ⟨rfl, (List.cons.inj htail).2⟩

lemma digit_lt (h : isDigit b = true) : b < 0x80 :=
  Nat.lt_of_le_of_lt (isDigit_iff.mp h).2 (by decide)

lemma IsDiscriminator.dot_notMem {d : Bytes} (h : IsDiscriminator d) : dot ∉ d :=
  fun hmem => absurd (h.1 dot hmem) (by decide)

lemma IsUsername.ascii (h : IsUsername s) : ∀ b ∈ s, b < 0x80 := by
  obtain ⟨_, d, rfl, ⟨b, rest, rfl, hb, _, hrest⟩, hd⟩ := h
  have hword : ∀ c, isWordByte c = true → c < 0x80 := by
    intro c hc
    have := isWordByte_iff.mp hc
    exact UInt8.lt_iff_toNat_lt.mpr (show c.toNat < 0x80 by omega)
  intro c hc
  rcases List.mem_append.mp hc with hc | hc
  · rcases List.mem_cons.mp hc with rfl | hc
    · exact hword c hb
    · exact (hrest c hc).elim (hword c) digit_lt
  · rcases List.mem_cons.mp hc with rfl | hc
    · decide
    · exact digit_lt (hd.1 c hc)

lemma fromParts_ok_iff (nickname discriminator : Bytes) :
    (∃ u, fromPartsWithoutSoftLimit nickname discriminator = .ok u) ↔
      IsNickname (foldLetters nickname) ∧ IsDiscriminator discriminator := by
  rw [← nickname_iff, ← validateDiscriminator_ok]
  constructor
  · rintro ⟨u, h⟩
    obtain ⟨_, hstart, h⟩ := bind_eq_ok h
    obtain ⟨d, hd, h⟩ := bind_eq_ok h
    obtain ⟨_, hhard, _⟩ := bind_eq_ok h
    exact ⟨⟨hstart, hhard⟩, d, hd⟩
  · rintro ⟨⟨hstart, hhard⟩, d, hd⟩
    rw [fromPartsWithoutSoftLimit, hstart, ok_bind, hd, ok_bind, hhard, ok_bind]
    exact ⟨_, rfl⟩

lemma parse_ok_iff (s : Bytes) : (∃ u, parse s = .ok u) ↔ IsUsername (foldLetters s) := by
  by_cases hdot : dot ∈ s
  · obtain ⟨n, d, rfl, hd⟩ := exists_last_dot hdot
    rw [parse_split hd, fromParts_ok_iff, foldLetters_dot]
    constructor
    · rintro ⟨hn, hdisc⟩
      rw [foldLetters_ascii fun b hb => digit_lt (hdisc.1 b hb)]
      exact ⟨_, d, rfl, hn, hdisc⟩
    · rintro ⟨n', d', heq, hn, hdisc⟩
      obtain ⟨rfl, rfl⟩ := append_dot_inj heq (mt dot_mem_foldLetters hd) hdisc.dot_notMem
      rw [foldLetters_digits hdisc.1] at hdisc
      exact ⟨hn, hdisc⟩
  · rw [parse_missing hdot]
    refine ⟨nofun, fun ⟨n, d, heq, _⟩ => absurd (dot_mem_foldLetters ?_) hdot⟩
    rw [heq]
    exact List.mem_append_right _ List.mem_cons_self

/-- A string is accepted exactly when it is a username, if and only if it has none of the two characters
that are folded or is no username with them replaced. -/
theorem parse_grammar (s : Bytes) :
    ((∃ u, parse s = .ok u) ↔ IsUsername s) ↔ foldLetters s = s ∨ ¬ IsUsername (foldLetters s) := by
  rw [parse_ok_iff]
  constructor
  · intro h
    by_cases hfold : IsUsername (foldLetters s)
    · exact .inl (foldLetters_ascii (h.mp hfold).ascii)
    · exact .inr hfold
  · rintro (h | h)
    · rw [h]
    · refine ⟨fun h' => absurd h' h, fun h' => ?_⟩
      rwa [foldLetters_ascii h'.ascii]

/-- The Kelvin sign with a discriminator is accepted and is no username. -/
theorem kelvin_accepted : parse [0xE2, 0x84, 0xAA, 0x2E, 0x34, 0x32] = .ok ⟨[0xE2, 0x84, 0xAA], 42⟩ ∧
      ¬ IsUsername [0xE2, 0x84, 0xAA, 0x2E, 0x34, 0x32] :=
  ⟨by decide +kernel, fun h => absurd (h.ascii 0xE2 List.mem_cons_self) (by decide)⟩

end LibSignal.Usernames
