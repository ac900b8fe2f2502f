import LibSignal.Curve.Edwards
import LibSignal.Lib.Numeration
import LibSignal.Usernames.Format

/-!
# Username hashes

Model of the hash functions of `usernames/usernames.go`. The group enters as the class `Ristretto255`, whose
scalars are those of the Edwards curve.
-/

namespace LibSignal.Usernames
open Chunked (Bytes)
open Crypto Lib Curve

class Ristretto255 where
  Element : Type
  setCanonicalBytes : Bytes → Option Element
  multiScalarMult : List Scalar → List Element → Element
  bytes : Element → Bytes

def setCanonicalScalar (x : Bytes) : Option Scalar :=
  if x.length = 32 ∧ ofLe x < groupOrder then some (ofLe x : Scalar) else none

def rawBasePoints : List Bytes :=
  [[0x60, 0xb9, 0x93, 0x66, 0x3a, 0x3d, 0xae, 0xcc, 0x4c, 0x85, 0x2f, 0x53, 0x35, 0x47, 0xe3, 0x05,
    0x38, 0x8c, 0x2a, 0x50, 0xa5, 0x83, 0x93, 0xea, 0x27, 0x7d, 0xe4, 0xab, 0xf3, 0xde, 0x54, 0x3a],
   [0xf2, 0xb6, 0xf1, 0xc8, 0x26, 0xfa, 0x36, 0x40, 0x20, 0x6f, 0x3b, 0x58, 0xb2, 0x28, 0x6b, 0xde,
    0xfd, 0xfd, 0xa6, 0xa5, 0x4f, 0xf9, 0x02, 0xf2, 0x04, 0xa7, 0x2d, 0xe7, 0x37, 0xd2, 0x61, 0x57],
   [0x06, 0x06, 0xbd, 0x3a, 0xbf, 0xce, 0x4e, 0x96, 0x17, 0xd4, 0x48, 0xfb, 0x2c, 0xae, 0xb6, 0xcc,
    0x02, 0x8e, 0xc9, 0xa2, 0xb6, 0x2b, 0x10, 0xb3, 0xd9, 0xeb, 0x29, 0x48, 0xda, 0x6f, 0x3f, 0x53]]

/-- The base points that the package decodes when it starts (`usernameHashBasePoints`); it panics when one
of them is refused. -/
structure BasePoints [Ristretto255] where
  points : List Ristretto255.Element
  decoded : rawBasePoints.mapM Ristretto255.setCanonicalBytes = some points

/-- A small scalar; the panic of the source is never reached (`scalarFromUint64_eq`). -/
def scalarFromUint64 (v : UInt64) : Scalar :=
  match setCanonicalScalar (leBytes 8 v.toNat ++ zeros 24) with
  | some s => s
  | none => 0

def usernameHashCharToByte (b : UInt8) : Option UInt8 :=
  if b = 0x5F then some 1
  else if 0x61 ≤ b ∧ b ≤ 0x7A then some (b - 0x61 + 2)
  else if 0x30 ≤ b ∧ b ≤ 0x39 then some (b - 0x30 + 28)
  else none

def usernameNicknameScalar (nickname : Bytes) : Except UsernameErr Scalar :=
  if nickname = [] then .error .nicknameCannotBeEmpty
  else if nickname.length > maxNicknameLength then .error .nicknameTooLong
  else
    match nickname.mapM usernameHashCharToByte with
    | none => .error .badNicknameCharacter
    | some bytes =>
      let thirtySeven := scalarFromUint64 37
      let twentySeven := scalarFromUint64 27
      -- from the last character down to the second
      let scalar := (bytes.drop 1).foldr (fun b scalar => scalar * thirtySeven + scalarFromUint64 b.toUInt64) 0
      .ok (scalar * twentySeven + scalarFromUint64 (bytes.getD 0 0).toUInt64)

section
variable [Sha512]

def usernameSHAScalar (nickname : Bytes) (discriminator : UInt64) : Scalar :=
  (ofLe (sha512 (nickname ++ [0x00] ++ beBytes 8 discriminator.toNat)) : Scalar)

def usernameHashScalars (nickname : Bytes) (discriminator : UInt64) : Except UsernameErr (List Scalar) := do
  let nicknameScalar ← usernameNicknameScalar nickname
  return [usernameSHAScalar nickname discriminator, nicknameScalar, scalarFromUint64 discriminator]

variable [Ristretto255] (bp : BasePoints)

def Username.reserveHash (u : Username) : Except UsernameErr Bytes := do
  let nickname := toLower u.nickname
  let scalars ← usernameHashScalars nickname u.discriminator
  let point := Ristretto255.multiScalarMult scalars bp.points
  return Ristretto255.bytes point

def reserveUsernameHash (username : Bytes) : Except UsernameErr Bytes := do
  let parsed ← parse username
  parsed.reserveHash bp

def hashFromParts (nickname : Bytes) (discriminator : UInt64) : Except UsernameErr Bytes := do
  validatePrefix nickname
  validateNicknameHard nickname
  if discriminator = 0 then .error .discriminatorCannotBeZero
  else Username.reserveHash bp ⟨nickname, discriminator⟩

end

lemma scalarFromUint64_eq (v : UInt64) : scalarFromUint64 v = (v.toNat : Scalar) := by
  have hlt : v.toNat < 256 ^ 8 := v.toNat_lt
  have hzeros : ofLe (zeros 24) = 0 := by decide
  have hvalue : ofLe (leBytes 8 v.toNat ++ zeros 24) = v.toNat := by
    rw [ofLe_append, hzeros, mul_zero, add_zero, ofLe_leBytes hlt]
  have hlength : (leBytes 8 v.toNat ++ zeros 24).length = 32 := by
    rw [List.length_append, length_leBytes, length_zeros]
  have horder : v.toNat < groupOrder := by
    rw [groupOrder]
    omega
  rw [scalarFromUint64, setCanonicalScalar, hvalue, if_pos ⟨hlength, horder⟩]

lemma natCast_scalar_inj {m n : Nat} (hm : m < groupOrder) (hn : n < groupOrder)
    (h : (m : Scalar) = n) : m = n := by
  rw [← ZMod.val_natCast_of_lt hm, h, ZMod.val_natCast_of_lt hn]

lemma scalarFromUint64_injective : Function.Injective scalarFromUint64 := by
  have horder : ∀ v : UInt64, v.toNat < groupOrder := by
    intro v
    have hlt := v.toNat_lt
    rw [groupOrder]
    omega
  intro v w h
  rw [scalarFromUint64_eq, scalarFromUint64_eq] at h
  exact UInt64.toNat_inj.mp (natCast_scalar_inj (horder v) (horder w) h)

def charNumber (b : UInt8) : Nat := ((usernameHashCharToByte b).getD 0).toNat

def nicknameNumber : Bytes → Nat
  | [] => 0
  | b :: rest => charNumber b + 27 * bijectiveValue 37 (rest.map charNumber)

lemma validNicknameByte_number : ∀ b : UInt8, validNicknameByte b = true →
    ∃ v, usernameHashCharToByte b = some v ∧ 1 ≤ v.toNat ∧ v.toNat ≤ 37 ∧ (isDigit b = false → v.toNat ≤ 27) := by
  decide +kernel

lemma charNumber_range {b : UInt8} (h : validNicknameByte b = true) :
    (1 ≤ charNumber b ∧ charNumber b ≤ 37) ∧ (isDigit b = false → charNumber b ≤ 27) := by
  obtain ⟨v, hv, hlo, hhi, hfirst⟩ := validNicknameByte_number b h
  rw [charNumber, hv]
  exact ⟨⟨hlo, hhi⟩, hfirst⟩

def charOfNumber (n : Nat) : UInt8 :=
  if n = 1 then 0x5F else if n ≤ 27 then (0x61 + (n - 2)).toUInt8 else (0x30 + (n - 28)).toUInt8

lemma charOfNumber_charNumber : ∀ b : UInt8, validNicknameByte b = true → charOfNumber (charNumber b) = b := by
  decide +kernel

/-- A nickname in lower case, as the hash reads it. -/
def IsLowerNickname (n : Bytes) : Prop :=
  (∀ b ∈ n, validNicknameByte b = true) ∧ n.length ≤ maxNicknameLength ∧
    ∃ b rest, n = b :: rest ∧ isDigit b = false

lemma map_charNumber_inj {as bs : Bytes} (has : ∀ b ∈ as, validNicknameByte b = true)
    (hbs : ∀ b ∈ bs, validNicknameByte b = true) (h : as.map charNumber = bs.map charNumber) : as = bs := by
  have hback : ∀ cs : Bytes, (∀ b ∈ cs, validNicknameByte b = true) →
      (cs.map charNumber).map charOfNumber = cs := by
    intro cs hcs
    rw [List.map_map]
    conv_rhs => rw [← List.map_id cs]
    exact List.map_congr_left fun b hb => charOfNumber_charNumber b (hcs b hb)
  rw [← hback as has, h, hback bs hbs]

variable {n : Bytes}

lemma digits_range (h : ∀ b ∈ n, validNicknameByte b = true) : ∀ d ∈ n.map charNumber, 1 ≤ d ∧ d ≤ 37 := by
  intro d hd
  obtain ⟨b, hb, rfl⟩ := List.mem_map.mp hd
  exact (charNumber_range (h b hb)).1

lemma nicknameNumber_inj {m : Bytes} (hm : IsLowerNickname m) (hn : IsLowerNickname n)
    (h : nicknameNumber m = nicknameNumber n) : m = n := by
  obtain ⟨hm, _, a, as, rfl, ha⟩ := hm
  obtain ⟨hn, _, b, bs, rfl, hb⟩ := hn
  rw [List.forall_mem_cons] at hm hn
  obtain ⟨hfirst, hrest⟩ := digit_add_mul_inj
    ⟨(charNumber_range hm.1).1.1, (charNumber_range hm.1).2 ha⟩
    ⟨(charNumber_range hn.1).1.1, (charNumber_range hn.1).2 hb⟩ h
  have htail := map_charNumber_inj hm.2 hn.2 (bijectiveValue_inj (digits_range hm.2) (digits_range hn.2) hrest)
  have hhead : a = b := by
    rw [← charOfNumber_charNumber a hm.1, hfirst, charOfNumber_charNumber b hn.1]
  rw [hhead, htail]

lemma nicknameNumber_lt (h : IsLowerNickname n) : nicknameNumber n < groupOrder := by
  obtain ⟨hall, hlength, b, rest, rfl, hb⟩ := h
  rw [List.forall_mem_cons] at hall
  have hfirst := (charNumber_range hall.1).2 hb
  have hrest := bijectiveValue_le (k := 36) fun d hd => (digits_range hall.2 d hd).2
  have hpow : 37 ^ ((rest.map charNumber).length + 1) ≤ 37 ^ 48 := by
    apply Nat.pow_le_pow_right (by decide)
    rw [List.length_map]
    exact hlength
  rw [nicknameNumber, groupOrder]
  generalize bijectiveValue 37 (rest.map charNumber) = v at hrest ⊢
  generalize 37 ^ ((rest.map charNumber).length + 1) = w at hrest hpow
  norm_num at hpow hrest
  omega

/-! ## The scalar of a nickname -/

lemma mapM_charToByte (h : ∀ b ∈ n, validNicknameByte b = true) :
    ∃ bytes, n.mapM usernameHashCharToByte = some bytes ∧ bytes.map UInt8.toNat = n.map charNumber := by
  induction n with
  | nil => exact ⟨[], rfl, rfl⟩
  | cons b n ih =>
    rw [List.forall_mem_cons] at h
    obtain ⟨v, hv, _⟩ := validNicknameByte_number b h.1
    obtain ⟨bytes, hbytes, hmap⟩ := ih h.2
    refine ⟨v :: bytes, ?_, ?_⟩
    · rw [List.mapM_cons, hv, hbytes]
      rfl
    · rw [List.map_cons, List.map_cons, hmap, charNumber, hv]
      rfl

lemma foldr_scalar (bytes : Bytes) :
    bytes.foldr (fun b scalar => scalar * scalarFromUint64 37 + scalarFromUint64 b.toUInt64) 0 =
      (bijectiveValue 37 (bytes.map UInt8.toNat) : Scalar) := by
  induction bytes with
  | nil => rw [List.foldr_nil, List.map_nil, bijectiveValue, Nat.cast_zero]
  | cons b bytes ih =>
    have hb : b.toUInt64.toNat = b.toNat := UInt8.toNat_toUInt64 b
    have hbase : (37 : UInt64).toNat = 37 := rfl
    rw [List.foldr_cons, ih, scalarFromUint64_eq, scalarFromUint64_eq, hb, hbase, List.map_cons, bijectiveValue]
    push_cast
    ring

lemma usernameNicknameScalar_eq (h : IsLowerNickname n) :
    usernameNicknameScalar n = .ok (nicknameNumber n : Scalar) := by
  obtain ⟨hall, hlength, b, rest, rfl, _⟩ := h
  obtain ⟨bytes, hbytes, hmap⟩ := mapM_charToByte hall
  rw [usernameNicknameScalar, if_neg (List.cons_ne_nil b rest), if_neg (Nat.not_lt.mpr hlength), hbytes]
  cases bytes with
  | nil => cases hmap
  | cons v bytes =>
    rw [List.map_cons, List.map_cons] at hmap
    obtain ⟨hfirst, hrest⟩ := List.cons.inj hmap
    have hv : v.toUInt64.toNat = v.toNat := UInt8.toNat_toUInt64 v
    have hbase : (27 : UInt64).toNat = 27 := rfl
    dsimp only
    rw [List.drop_one, List.tail_cons, List.getD_cons_zero, foldr_scalar, scalarFromUint64_eq,
      scalarFromUint64_eq, hv, hbase, hrest, hfirst, nicknameNumber]
    congr 1
    push_cast
    ring

lemma first_toLower {s : Bytes} (hstart : validatePrefix s = .ok ())
    (hall : ∀ b ∈ toLower s, validNicknameByte b = true) :
    ∃ b rest, toLower s = b :: rest ∧ isDigit b = false := by
  obtain ⟨b, rest, rfl, hb⟩ := validatePrefix_ok.mp hstart
  have hrunes : runes (b :: rest) = (decodeRune b rest).1 :: runesFrom ((decodeRune b rest).2 - 1) rest := rfl
  have hlower : toLower (b :: rest) = appendRune (toLowerRune (decodeRune b rest).1) ++
      (runesFrom ((decodeRune b rest).2 - 1) rest).flatMap fun r => appendRune (toLowerRune r) := by
    rw [toLower, hrunes, List.flatMap_cons]
  rw [hlower] at hall ⊢
  have hrune : nicknameRune (decodeRune b rest).1 = true := by
    rw [nicknameRune, List.all_eq_true]
    exact fun c hc => hall c (List.mem_append_left _ hc)
  by_cases hascii : b < 0x80
  · have hlt : b.toNat < 128 := hascii
    have hdigit := mt isDigit_iff.mpr (Bool.eq_false_iff.mp hb)
    have hlowlt : toLowerRune b.toNat < 128 := by
      rw [toLowerRune_ascii hlt]
      split <;> omega
    rw [decodeRune_ascii hascii, appendRune_ascii hlowlt]
    refine ⟨_, _, rfl, ?_⟩
    rw [Bool.eq_false_iff, Ne, isDigit_iff]
    change ¬ (0x30 ≤ toLowerRune b.toNat % 256 ∧ toLowerRune b.toNat % 256 ≤ 0x39)
    rw [toLowerRune_ascii hlt]
    split <;> omega
  · -- the two runes outside ASCII have the lower cases `i` and `k`
    rcases nicknameRune_outside (decodeRune_outside hascii rest).1 hrune with hr | hr
    · rw [hr, toLowerRune_dotted]
      exact ⟨_, _, rfl, rfl⟩
    · rw [hr, toLowerRune_kelvin]
      exact ⟨_, _, rfl, rfl⟩

lemma isLowerNickname_toLower {s : Bytes} (hstart : validatePrefix s = .ok ())
    (hhard : validateNicknameHard s = .ok ()) : IsLowerNickname (toLower s) := by
  obtain ⟨hall, hlength⟩ := validateNicknameHard_ok.mp hhard
  exact ⟨hall, hlength, first_toLower hstart hall⟩

lemma nicknameScalar_inj {m : Bytes} (hm : IsLowerNickname m) (hn : IsLowerNickname n) :
    usernameNicknameScalar m = usernameNicknameScalar n ↔ m = n := by
  refine ⟨?_, congrArg usernameNicknameScalar⟩
  intro h
  rw [usernameNicknameScalar_eq hm, usernameNicknameScalar_eq hn] at h
  exact nicknameNumber_inj hm hn
    (natCast_scalar_inj (nicknameNumber_lt hm) (nicknameNumber_lt hn) (Except.ok.inj h))

section
variable [Sha512] [Ristretto255]

lemma reserveHash_ok (bp : BasePoints) {u : Username} (h : IsLowerNickname (toLower u.nickname)) :
    ∃ hash, u.reserveHash bp = .ok hash := by
  rw [Username.reserveHash]
  dsimp only
  rw [usernameHashScalars, usernameNicknameScalar_eq h, ok_bind, pure_bind]
  exact ⟨_, rfl⟩

/-- The inputs of the hash identify the username. -/
theorem hash_identifies (bp : BasePoints) {s s' : Bytes} {u u' : Username} (h : parse s = .ok u)
    (h' : parse s' = .ok u') : u.string = s ∧
    (∃ x, usernameNicknameScalar (toLower u.nickname) = .ok x ∧ x.val = nicknameNumber (toLower u.nickname)) ∧
    (usernameNicknameScalar (toLower u.nickname) = usernameNicknameScalar (toLower u'.nickname) ∧
        scalarFromUint64 u.discriminator = scalarFromUint64 u'.discriminator ↔
      toLower u.nickname = toLower u'.nickname ∧ u.discriminator = u'.discriminator) ∧
    (∃ hash, reserveUsernameHash bp s = .ok hash) ∧
    (toLower u.nickname = toLower u'.nickname → u.discriminator = u'.discriminator →
      reserveUsernameHash bp s = reserveUsernameHash bp s') ∧
    hashFromParts bp u.nickname u.discriminator = reserveUsernameHash bp s := by
  obtain ⟨d, _, hstart, hd, hhard⟩ := parse_inv h
  obtain ⟨d', _, hstart', _, hhard'⟩ := parse_inv h'
  have hlower := isLowerNickname_toLower hstart hhard
  have hlower' := isLowerNickname_toLower hstart' hhard'
  have hhash : reserveUsernameHash bp s = u.reserveHash bp := by rw [reserveUsernameHash, h, ok_bind]
  have hhash' : reserveUsernameHash bp s' = u'.reserveHash bp := by rw [reserveUsernameHash, h', ok_bind]
  refine ⟨string_of_parse h, ?_, ?_, ?_, ?_, ?_⟩
  · exact ⟨_, usernameNicknameScalar_eq hlower, ZMod.val_natCast_of_lt (nicknameNumber_lt hlower)⟩
  · rw [nicknameScalar_inj hlower hlower', scalarFromUint64_injective.eq_iff]
  · rw [hhash]
    exact reserveHash_ok bp hlower
  · intro hnick hdisc
    rw [hhash, hhash', Username.reserveHash, Username.reserveHash, hnick, hdisc]
  · obtain ⟨_, hvalue, hpos⟩ := validateDiscriminator_value hd
    have hne : u.discriminator ≠ 0 := by
      intro hzero
      rw [hzero] at hvalue
      exact absurd hvalue (Nat.ne_of_lt hpos)
    rw [hhash, hashFromParts, hstart, ok_bind, hhard, ok_bind, if_neg hne]

end

@[reducible] def unitRistretto : Ristretto255 where
  Element := Unit
  setCanonicalBytes _ := some ()
  multiScalarMult _ _ := ()
  bytes _ := zeros 32

def unitBasePoints : @BasePoints unitRistretto := @BasePoints.mk unitRistretto [(), (), ()] rfl

/-- Two case variants of a username, `Ab.42` and `aB.42`. -/
theorem hash_identifies_variants :
    (⟨[0x41, 0x62], 42⟩ : Username).string = [0x41, 0x62, 0x2E, 0x34, 0x32] ∧
    (∃ x, usernameNicknameScalar (toLower [0x41, 0x62]) = .ok x ∧
      x.val = nicknameNumber (toLower [0x41, 0x62])) ∧
    (usernameNicknameScalar (toLower [0x41, 0x62]) = usernameNicknameScalar (toLower [0x61, 0x42]) ∧
        scalarFromUint64 42 = scalarFromUint64 42 ↔
      toLower [0x41, 0x62] = toLower [0x61, 0x42] ∧ (42 : UInt64) = 42) ∧
    (∃ hash, @reserveUsernameHash zeroSha512 unitRistretto unitBasePoints [0x41, 0x62, 0x2E, 0x34, 0x32] =
      .ok hash) ∧
    (toLower [0x41, 0x62] = toLower [0x61, 0x42] → (42 : UInt64) = 42 →
      @reserveUsernameHash zeroSha512 unitRistretto unitBasePoints [0x41, 0x62, 0x2E, 0x34, 0x32] =
        @reserveUsernameHash zeroSha512 unitRistretto unitBasePoints [0x61, 0x42, 0x2E, 0x34, 0x32]) ∧
    @hashFromParts zeroSha512 unitRistretto unitBasePoints [0x41, 0x62] 42 =
      @reserveUsernameHash zeroSha512 unitRistretto unitBasePoints [0x41, 0x62, 0x2E, 0x34, 0x32] :=
  @hash_identifies zeroSha512 unitRistretto unitBasePoints [0x41, 0x62, 0x2E, 0x34, 0x32]
    [0x61, 0x42, 0x2E, 0x34, 0x32] ⟨[0x41, 0x62], 42⟩ ⟨[0x61, 0x42], 42⟩ (by decide +kernel) (by decide +kernel)

end LibSignal.Usernames
