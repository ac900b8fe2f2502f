import LibSignal.Address.ServiceId
import LibSignal.Lib.ByteOrder

/-!
# The encodings of service ids

Model of the encodings of `address/serviceid.go` and of the UUID strings of `address/address.go`.
-/

namespace LibSignal.Address
open Chunked (Bytes)
open Crypto Lib

inductive AddressErr where
  | invalidServiceID
  /-- An index out of range, which is a panic. -/
  | outOfRange
deriving DecidableEq, Repr

abbrev UUID := { b : Bytes // b.length = uuidLen }

def ServiceID.ofUUID (kind : ServiceIDKind) (uuid : UUID) : ServiceID := ⟨kind, uuid.1, uuid.2⟩

def ServiceID.rawUUID (s : ServiceID) : UUID := ⟨s.uuid, s.length_uuid⟩

def ServiceID.serviceIDBinary (s : ServiceID) : Bytes :=
  if s.kind = .aci then s.uuid else s.serviceIDFixedWidthBinary

def parseServiceIDBinary (b : Bytes) : Option ServiceID :=
  if h : b.length = uuidLen then some ⟨.aci, b, h⟩
  else if b.length = serviceIDFixedWidthBinaryLen then
    match parseServiceIDFixedWidthBinary b with
    | none => none
    | some result => if result.kind = .aci then none else some result
  else none

def ServiceID.compare (s other : ServiceID) : Int :=
  compareBytes s.serviceIDFixedWidthBinary other.serviceIDFixedWidthBinary

def hexVal (c : UInt8) : Option UInt8 :=
  if 48 ≤ c ∧ c ≤ 57 then some (c - 48)
  else if 97 ≤ c ∧ c ≤ 102 then some (c - 97 + 10)
  else if 65 ≤ c ∧ c ≤ 70 then some (c - 65 + 10)
  else none

def lowerHex : Bytes := ascii "0123456789abcdef"

def hyphenatedUUIDLen : Nat := 36
def hyphenPositions : List Nat := [8, 13, 18, 23]
def hyphen : UInt8 := 45

def written (out : Bytes) : UUID :=
  ⟨(out ++ zeros uuidLen).take uuidLen, by
    rw [List.length_take_of_le]
    rw [List.length_append, length_zeros]
    exact Nat.le_add_left _ _⟩

/-- The digits of `parseHyphenatedUUID` from an index on; `out` are the bytes written before. Every round
moves the index. -/
def hexLoop (s : Bytes) : Nat → Nat → Bytes → Except AddressErr Bytes
  | 0, i, out => if i < s.length then .error .outOfRange else .ok out
  | fuel + 1, i, out =>
    if i < s.length then
      if i ∈ hyphenPositions then hexLoop s fuel (i + 1) out
      else
        match s[i]? with
        | none => .error .outOfRange
        | some c =>
          match hexVal c with
          | none => .error .invalidServiceID
          | some hi =>
            match s[i + 1]? with
            | none => .error .outOfRange
            | some c =>
              match hexVal c with
              | none => .error .invalidServiceID
              | some lo =>
                if out.length < uuidLen then hexLoop s fuel (i + 2) (out ++ [hi <<< 4 ||| lo])
                else .error .outOfRange
    else .ok out

def parseHyphenatedUUID (s : Bytes) : Except AddressErr UUID :=
  if s.length ≠ hyphenatedUUIDLen then .error .invalidServiceID
  else if ∃ pos ∈ hyphenPositions, s.getD pos 0 ≠ hyphen then .error .invalidServiceID
  else (hexLoop s s.length 0 []).map written

def formatFrom : Nat → Bytes → Bytes
  | _, [] => []
  | bi, b :: uuid =>
    if bi ∈ hyphenPositions then
      hyphen :: lowerHex.getD (b >>> 4).toNat 0 :: lowerHex.getD (b &&& 15).toNat 0 :: formatFrom (bi + 3) uuid
    else lowerHex.getD (b >>> 4).toNat 0 :: lowerHex.getD (b &&& 15).toNat 0 :: formatFrom (bi + 2) uuid

def formatUUID (uuid : UUID) : Bytes := formatFrom 0 uuid.1

def ServiceIDKind.string : ServiceIDKind → Bytes
  | .aci => ascii "ACI"
  | .pni => ascii "PNI"

def ServiceID.serviceIDString (s : ServiceID) : Bytes :=
  if s.kind = .aci then formatUUID s.rawUUID else s.kind.string ++ ascii ":" ++ formatUUID s.rawUUID

def strip (s start : Bytes) : Option Bytes :=
  if s.length ≥ start.length ∧ s.take start.length = start then some (s.drop start.length) else none

def parseServiceIDString (input : Bytes) : Except AddressErr ServiceID :=
  match strip input (ascii "PNI:") with
  | some rest => (parseHyphenatedUUID rest).map (.ofUUID .pni)
  | none => (parseHyphenatedUUID input).map (.ofUUID .aci)

lemma parseFixedWidth_eq_some {b : Bytes} {s : ServiceID} :
    parseServiceIDFixedWidthBinary b = some s ↔ b = s.serviceIDFixedWidthBinary := by
  constructor
  · intro h
    unfold parseServiceIDFixedWidthBinary at h
    split at h
    · cases h
    · split at h
      · split at h
        · rename_i htag
          cases h
          rw [htag]
          rfl
        · split at h
          · rename_i htag
            cases h
            rw [htag]
            rfl
          · cases h
      · cases h
  · rintro rfl
    exact parse_fixedWidth s

lemma parseBinary_eq_some {b : Bytes} {s : ServiceID} :
    parseServiceIDBinary b = some s ↔ b = s.serviceIDBinary := by
  constructor
  · intro h
    rw [parseServiceIDBinary] at h
    split at h
    · cases h
      rfl
    · split at h
      · split at h
        · cases h
        · rename_i result hresult
          split at h
          · cases h
          · rename_i hkind
            cases h
            rw [ServiceID.serviceIDBinary, if_neg hkind]
            exact parseFixedWidth_eq_some.mp hresult
      · cases h
  · rintro rfl
    rw [ServiceID.serviceIDBinary]
    split
    · rename_i hkind
      obtain ⟨kind, uuid, hlen⟩ := s
      cases hkind
      exact dif_pos hlen
    · rename_i hkind
      have hlen : s.serviceIDFixedWidthBinary.length = serviceIDFixedWidthBinaryLen := s.length_fixedWidth
      rw [parseServiceIDBinary, dif_neg (by rw [hlen]; decide), if_pos hlen, parse_fixedWidth]
      exact if_neg hkind

def lowerDigit (c : UInt8) : UInt8 := if 65 ≤ c ∧ c ≤ 70 then c + 32 else c

def hexDigits : Bytes := [48, 49, 50, 51, 52, 53, 54, 55, 56, 57, 97, 98, 99, 100, 101, 102]

lemma lowerHex_eq : lowerHex = hexDigits := by decide

lemma evaluated_bytes (c : UInt8) :
    (hexVal (lowerDigit c) = hexVal c ∧ ((hexVal c).isSome → lowerDigit c ∈ hexDigits)) ∧
    (c >>> 4 < 16 ∧ c &&& 15 < 16 ∧ (c >>> 4) <<< 4 ||| (c &&& 15) = c) ∧ (lowerDigit c = hyphen ↔ c = hyphen) ∧
    (lowerDigit c ∈ [80, 78, 73, 58] → lowerDigit c = c) := by
  revert c
  decide +kernel

lemma hexVal_hexDigits {v : UInt8} (hv : v < 16) : hexVal (hexDigits.getD v.toNat 0) = some v := by
  have htable : ∀ k : Fin 16, hexVal (hexDigits.getD k 0) = some (.ofNat k) := by decide
  have hdigit := htable ⟨v.toNat, UInt8.lt_iff_toNat_lt.mp hv⟩
  rwa [UInt8.ofNat_toNat] at hdigit

variable {c : UInt8} {i n : Nat} {out s v : Bytes} {uuid : UUID}

lemma hexVal_eq_some {v : UInt8} : hexVal c = some v ↔ v < 16 ∧ lowerDigit c = lowerHex.getD v.toNat 0 := by
  obtain ⟨hlower, hdigit⟩ := (evaluated_bytes c).1
  rw [lowerHex_eq]
  constructor
  · intro h
    obtain ⟨k, hk, hc⟩ := List.getElem_of_mem (hdigit (by rw [h]; rfl))
    have hbyte : (UInt8.ofNat k).toNat = k := by
      rw [UInt8.toNat_ofNat']
      exact Nat.mod_eq_of_lt (hk.trans (by decide))
    have hlt : UInt8.ofNat k < 16 := UInt8.lt_iff_toNat_lt.mpr (hbyte.symm ▸ hk)
    have hsame : lowerDigit c = hexDigits.getD (UInt8.ofNat k).toNat 0 := by
      rw [hbyte, List.getD_eq_getElem _ _ hk, hc]
    have hvalue := hexVal_hexDigits hlt
    rw [← hsame, hlower, h] at hvalue
    cases hvalue
    exact ⟨hlt, hsame⟩
  · rintro ⟨hv, hsame⟩
    rw [← hlower, hsame, hexVal_hexDigits hv]

lemma digits_byte (b : UInt8) : b >>> 4 < 16 ∧ b &&& 15 < 16 ∧ (b >>> 4) <<< 4 ||| (b &&& 15) = b :=
  (evaluated_bytes b).2.1

lemma byte_digits {hi lo : UInt8} (hhi : hi < 16) (hlo : lo < 16) :
    (hi <<< 4 ||| lo) >>> 4 = hi ∧ (hi <<< 4 ||| lo) &&& 15 = lo := by
  have htable : ∀ a b : Fin 16, ((UInt8.ofNat a) <<< 4 ||| (UInt8.ofNat b)) >>> 4 = UInt8.ofNat a ∧
      ((UInt8.ofNat a) <<< 4 ||| (UInt8.ofNat b)) &&& 15 = UInt8.ofNat b := by decide +kernel
  have h := htable ⟨hi.toNat, UInt8.lt_iff_toNat_lt.mp hhi⟩ ⟨lo.toNat, UInt8.lt_iff_toNat_lt.mp hlo⟩
  rwa [UInt8.ofNat_toNat, UInt8.ofNat_toNat] at h

lemma lowerDigit_eq_hyphen : lowerDigit c = hyphen ↔ c = hyphen := (evaluated_bytes c).2.2.1

/-! ## What the loop accepts -/

/-- The hyphens of a string are where they have to be. -/
def Hyphenated (s : Bytes) : Prop :=
  s.length = hyphenatedUUIDLen ∧ ∀ pos ∈ hyphenPositions, s[pos]? = some hyphen

lemma hyphenPositions_next (h : i ∈ hyphenPositions) : i + 1 < hyphenatedUUIDLen ∧ i + 1 ∉ hyphenPositions := by
  have hall : ∀ i ∈ hyphenPositions, i + 1 < hyphenatedUUIDLen ∧ i + 1 ∉ hyphenPositions := by decide
  exact hall i h

lemma formatFrom_eq_nil : formatFrom i v = [] ↔ v = [] := by
  cases v with
  | nil => exact ⟨fun _ => rfl, fun _ => rfl⟩
  | cons b v =>
    refine ⟨fun h => ?_, nofun⟩
    rw [formatFrom] at h
    split at h <;> cases h

lemma format_pair_iff (hi : i < s.length) (hpos : i ∉ hyphenPositions) :
    (s.drop i).map lowerDigit = formatFrom i v ↔
      ∃ c c' hi lo v', s[i]? = some c ∧ hexVal c = some hi ∧ s[i + 1]? = some c' ∧ hexVal c' = some lo ∧
        v = (hi <<< 4 ||| lo) :: v' ∧ (s.drop (i + 2)).map lowerDigit = formatFrom (i + 2) v' := by
  rw [List.drop_eq_getElem_cons hi, List.map_cons]
  constructor
  · intro h
    cases v with
    | nil => cases h
    | cons b v =>
      rw [formatFrom, if_neg hpos] at h
      obtain ⟨hfirst, h⟩ := List.cons.inj h
      obtain ⟨hhi, hlo, hb⟩ := digits_byte b
      by_cases hnext : i + 1 < s.length
      · rw [List.drop_eq_getElem_cons hnext, List.map_cons] at h
        obtain ⟨hsecond, h⟩ := List.cons.inj h
        exact ⟨_, _, b >>> 4, b &&& 15, v, List.getElem?_eq_getElem hi, hexVal_eq_some.mpr ⟨hhi, hfirst⟩,
          List.getElem?_eq_getElem hnext, hexVal_eq_some.mpr ⟨hlo, hsecond⟩, by rw [hb], h⟩
      · rw [List.drop_eq_nil_of_le (Nat.not_lt.mp hnext)] at h
        cases h
  · rintro ⟨c, c', hi', lo, v', hc, hhi, hc', hlo, rfl, h⟩
    obtain ⟨hnext, rfl⟩ := List.getElem?_eq_some_iff.mp hc'
    obtain ⟨_, rfl⟩ := List.getElem?_eq_some_iff.mp hc
    obtain ⟨hhi, hfirst⟩ := hexVal_eq_some.mp hhi
    obtain ⟨hlo, hsecond⟩ := hexVal_eq_some.mp hlo
    obtain ⟨hbyte, hbyte'⟩ := byte_digits hhi hlo
    rw [List.drop_eq_getElem_cons hnext, List.map_cons, formatFrom, if_neg hpos, hfirst, hsecond, h, hbyte, hbyte']

lemma format_hyphen_iff (hs : Hyphenated s) (hpos : i ∈ hyphenPositions) :
    (s.drop i).map lowerDigit = formatFrom i v ↔ (s.drop (i + 1)).map lowerDigit = formatFrom (i + 1) v := by
  obtain ⟨hnext, hapart⟩ := hyphenPositions_next hpos
  rw [← hs.1] at hnext
  have hi : i < s.length := Nat.lt_of_succ_lt hnext
  have hchar : s[i] = hyphen := by
    have hread := hs.2 i hpos
    rwa [List.getElem?_eq_getElem hi, Option.some.injEq] at hread
  rw [List.drop_eq_getElem_cons hi, List.map_cons, hchar]
  cases v with
  | nil =>
    rw [List.drop_eq_getElem_cons hnext]
    exact ⟨nofun, nofun⟩
  | cons b v =>
    rw [formatFrom, if_pos hpos, formatFrom, if_neg hapart]
    exact ⟨fun h => (List.cons.inj h).2, fun h => congrArg (hyphen :: ·) h⟩

lemma hexLoop_pair_iff (hi : i < s.length) (hpos : i ∉ hyphenPositions) (fuel : Nat) {u : Bytes} :
    hexLoop s (fuel + 1) i out = .ok u ↔
      ∃ c c' hi lo, s[i]? = some c ∧ hexVal c = some hi ∧ s[i + 1]? = some c' ∧ hexVal c' = some lo ∧
        out.length < uuidLen ∧ hexLoop s fuel (i + 2) (out ++ [hi <<< 4 ||| lo]) = .ok u := by
  rw [hexLoop, if_pos hi, if_neg hpos]
  constructor
  · intro h
    split at h
    · cases h
    · rename_i c hc
      split at h
      · cases h
      · rename_i hi' hhi
        split at h
        · cases h
        · rename_i c' hc'
          split at h
          · cases h
          · rename_i lo hlo
            split at h
            · rename_i hroom
              exact ⟨c, c', hi', lo, hc, hhi, hc', hlo, hroom, h⟩
            · cases h
  · rintro ⟨c, c', hi', lo, hc, hhi, hc', hlo, hroom, h⟩
    rw [hc]
    dsimp only
    rw [hhi]
    dsimp only
    rw [hc']
    dsimp only
    rw [hlo]
    dsimp only
    rw [if_pos hroom, h]

lemma hexLoop_end_iff (fuel : Nat) (hend : ¬ i < s.length) (hout : out.length ≤ uuidLen) {u : Bytes} :
    hexLoop s fuel i out = .ok u ↔
      ∃ v, u = out ++ v ∧ u.length ≤ uuidLen ∧ (s.drop i).map lowerDigit = formatFrom i v := by
  have hloop : hexLoop s fuel i out = .ok out := by
    cases fuel <;> rw [hexLoop, if_neg hend]
  rw [hloop, List.drop_eq_nil_of_le (Nat.not_lt.mp hend), List.map_nil]
  constructor
  · intro h
    cases h
    exact ⟨[], (List.append_nil _).symm, hout, rfl⟩
  · rintro ⟨v, rfl, _, hv⟩
    rw [formatFrom_eq_nil.mp hv.symm, List.append_nil]

lemma hexLoop_ok_iff (hs : Hyphenated s) {fuel : Nat} (hfuel : s.length - i ≤ fuel)
    (hout : out.length ≤ uuidLen) (u : Bytes) : hexLoop s fuel i out = .ok u ↔
      ∃ v, u = out ++ v ∧ u.length ≤ uuidLen ∧ (s.drop i).map lowerDigit = formatFrom i v := by
  induction fuel generalizing i out with
  | zero => exact hexLoop_end_iff 0 (by omega) hout
  | succ fuel ih =>
    by_cases hi : i < s.length
    · by_cases hpos : i ∈ hyphenPositions
      · rw [hexLoop, if_pos hi, if_pos hpos, ih (by omega) hout]
        simp only [format_hyphen_iff hs hpos]
      · rw [hexLoop_pair_iff hi hpos]
        constructor
        · rintro ⟨c, c', hi', lo, hc, hhi, hc', hlo, hroom, h⟩
          rw [ih (by omega) (by rw [List.length_append]; exact hroom)] at h
          obtain ⟨v, rfl, hlen, hv⟩ := h
          exact ⟨_, List.append_assoc _ _ _, hlen,
            (format_pair_iff hi hpos).mpr ⟨c, c', hi', lo, v, hc, hhi, hc', hlo, rfl, hv⟩⟩
        · rintro ⟨v, rfl, hlen, hv⟩
          obtain ⟨c, c', hi', lo, v', hc, hhi, hc', hlo, rfl, hrest⟩ := (format_pair_iff hi hpos).mp hv
          have hroom : out.length < uuidLen := by
            rw [List.length_append, List.length_cons] at hlen
            omega
          refine ⟨c, c', hi', lo, hc, hhi, hc', hlo, hroom, ?_⟩
          rw [ih (by omega) (by rw [List.length_append]; exact hroom)]
          exact ⟨v', by rw [List.append_assoc]; rfl, hlen, hrest⟩
    · exact hexLoop_end_iff (fuel + 1) hi hout

/-! ## The indices that are reached -/

def offsets : List (Nat × Nat) :=
  [(0, 0), (2, 1), (4, 2), (6, 3), (8, 4), (9, 4), (11, 5), (13, 6), (14, 6), (16, 7), (18, 8), (19, 8), (21, 9),
    (23, 10), (24, 10), (26, 11), (28, 12), (30, 13), (32, 14), (34, 15), (36, 16)]

/-- An index at which a byte or a hyphen starts, after `n` bytes. -/
def Aligned (i n : Nat) : Prop := (i, n) ∈ offsets

lemma Aligned.hyphen (h : Aligned i n) (hpos : i ∈ hyphenPositions) : Aligned (i + 1) n := by
  have hall : ∀ p ∈ offsets, p.1 ∈ hyphenPositions → (p.1 + 1, p.2) ∈ offsets := by decide
  exact hall (i, n) h hpos

lemma Aligned.pair (h : Aligned i n) (hi : i < hyphenatedUUIDLen) (hpos : i ∉ hyphenPositions) :
    i + 1 < hyphenatedUUIDLen ∧ i + 1 ∉ hyphenPositions ∧ n < uuidLen ∧ Aligned (i + 2) (n + 1) := by
  have hall : ∀ p ∈ offsets, p.1 < hyphenatedUUIDLen → p.1 ∉ hyphenPositions →
      p.1 + 1 < hyphenatedUUIDLen ∧ p.1 + 1 ∉ hyphenPositions ∧ p.2 < uuidLen ∧
        (p.1 + 2, p.2 + 1) ∈ offsets := by decide
  exact hall (i, n) h hi hpos

lemma Aligned.end_iff (h : Aligned i n) : i < hyphenatedUUIDLen ↔ n < uuidLen := by
  have hall : ∀ p ∈ offsets, p.1 < hyphenatedUUIDLen ↔ p.2 < uuidLen := by decide
  exact hall (i, n) h

lemma Aligned.le (h : Aligned i n) : i ≤ hyphenatedUUIDLen ∧ n ≤ uuidLen := by
  have hall : ∀ p ∈ offsets, p.1 ≤ hyphenatedUUIDLen ∧ p.2 ≤ uuidLen := by decide
  exact hall (i, n) h

lemma hexLoop_aligned (hs : s.length = hyphenatedUUIDLen) {fuel : Nat} (hfuel : s.length - i ≤ fuel)
    (h : Aligned i out.length) : hexLoop s fuel i out = .error .invalidServiceID ∨
      ∃ u, hexLoop s fuel i out = .ok u ∧ u.length = uuidLen := by
  induction fuel generalizing i out with
  | zero =>
    have hend : ¬ i < s.length := by omega
    have hfull : ¬ out.length < uuidLen := by rwa [← h.end_iff, ← hs]
    exact .inr ⟨out, if_neg hend, Nat.le_antisymm h.le.2 (Nat.not_lt.mp hfull)⟩
  | succ fuel ih =>
    rw [hexLoop]
    split
    · rename_i hi
      split
      · rename_i hpos
        exact ih (by omega) (h.hyphen hpos)
      · rename_i hpos
        obtain ⟨hnext, _, hroom, haligned⟩ := h.pair (hs ▸ hi) hpos
        rw [← hs] at hnext
        rw [List.getElem?_eq_getElem hi, List.getElem?_eq_getElem hnext]
        dsimp only
        split
        · exact .inl rfl
        · split
          · exact .inl rfl
          · rw [if_pos hroom]
            exact ih (by omega) (by rw [List.length_append]; exact haligned)
    · rename_i hend
      have hfull : ¬ out.length < uuidLen := by rwa [← h.end_iff, ← hs]
      exact .inr ⟨out, rfl, Nat.le_antisymm h.le.2 (Nat.not_lt.mp hfull)⟩

/-- A text from an index on fills the string, with a hyphen in each of the later positions. -/
def Fills (i : Nat) (text : Bytes) : Prop :=
  text.length = hyphenatedUUIDLen - i ∧ ∀ pos ∈ hyphenPositions, i ≤ pos → text[pos - i]? = some hyphen

lemma Fills.cons {text : Bytes} (h : Fills (i + 1) text) (hi : i < hyphenatedUUIDLen)
    (hc : i ∈ hyphenPositions → c = hyphen) : Fills i (c :: text) := by
  obtain ⟨hlen, hhyphens⟩ := h
  refine ⟨by rw [List.length_cons, hlen]; omega, ?_⟩
  intro pos hpos hle
  rcases hle.eq_or_lt with rfl | hlt
  · rw [Nat.sub_self, List.getElem?_cons_zero, hc hpos]
  · have hindex : pos - i = pos - (i + 1) + 1 := by omega
    rw [hindex, List.getElem?_cons_succ]
    exact hhyphens pos hpos hlt

lemma formatFrom_hyphen (hpos : i ∈ hyphenPositions) (b : UInt8) (v : Bytes) :
    formatFrom i (b :: v) = hyphen :: formatFrom (i + 1) (b :: v) := by
  rw [formatFrom, if_pos hpos, formatFrom, if_neg (hyphenPositions_next hpos).2]

lemma fills_formatFrom (h : Aligned i n) (hv : n + v.length = uuidLen) : Fills i (formatFrom i v) := by
  induction v generalizing i n with
  | nil =>
    have hend : ¬ i < hyphenatedUUIDLen := by
      rw [h.end_iff, ← hv]
      exact Nat.lt_irrefl n
    refine ⟨by rw [formatFrom, List.length_nil]; omega, fun pos hpos hle => ?_⟩
    have hinside := (hyphenPositions_next hpos).1
    omega
  | cons b v ih =>
    rw [List.length_cons] at hv
    have hpair : ∀ j, Aligned j n → j ∉ hyphenPositions → Fills j (formatFrom j (b :: v)) := by
      intro j hj hpos
      have hinside : j < hyphenatedUUIDLen := hj.end_iff.mpr (by omega)
      obtain ⟨hnext, hapart, _, haligned⟩ := hj.pair hinside hpos
      rw [formatFrom, if_neg hpos]
      exact ((ih haligned (by omega)).cons hnext fun h => absurd h hapart).cons hinside fun h => absurd h hpos
    by_cases hpos : i ∈ hyphenPositions
    · obtain ⟨hnext, hapart⟩ := hyphenPositions_next hpos
      rw [formatFrom_hyphen hpos]
      exact (hpair (i + 1) (h.hyphen hpos) hapart).cons (Nat.lt_of_succ_lt hnext) fun _ => rfl
    · exact hpair i h hpos

/-! ## Strings are canonical up to case -/

lemma written_eq (h : out.length = uuidLen) : written out = ⟨out, h⟩ :=
  Subtype.ext (List.take_left' h)

lemma hyphenated_of_format (h : s.map lowerDigit = formatUUID uuid) : Hyphenated s := by
  obtain ⟨hlen, hhyphens⟩ := fills_formatFrom (show Aligned 0 0 from List.mem_cons_self)
    ((Nat.zero_add _).trans uuid.2)
  rw [← formatUUID, ← h] at hlen hhyphens
  rw [List.length_map] at hlen
  refine ⟨hlen, fun pos hpos => ?_⟩
  have hread := hhyphens pos hpos (Nat.zero_le pos)
  rw [Nat.sub_zero, List.getElem?_map] at hread
  obtain ⟨c, hc, hlower⟩ := Option.map_eq_some_iff.mp hread
  rw [hc, lowerDigit_eq_hyphen.mp hlower]

lemma parseHyphenatedUUID_ok_iff : parseHyphenatedUUID s = .ok uuid ↔ s.map lowerDigit = formatUUID uuid := by
  constructor
  · intro h
    rw [parseHyphenatedUUID] at h
    split at h
    · cases h
    · rename_i hlen
      rw [not_not] at hlen
      split at h
      · cases h
      · rename_i hhyphens
        have hs : Hyphenated s := by
          refine ⟨hlen, fun pos hpos => ?_⟩
          have hchar : s.getD pos 0 = hyphen := by
            by_contra hne
            exact hhyphens ⟨pos, hpos, hne⟩
          have hinside : pos < s.length := by
            have hnext := (hyphenPositions_next hpos).1
            omega
          rw [List.getElem?_eq_getElem hinside, ← hchar, List.getD_eq_getElem _ _ hinside]
        rcases hexLoop_aligned hlen (Nat.sub_le _ _) (show Aligned 0 ([] : Bytes).length from List.mem_cons_self)
          with hbad | ⟨u, hu, hfull⟩
        · rw [hbad] at h
          cases h
        · rw [hu] at h
          obtain ⟨v, rfl, _, hv⟩ := (hexLoop_ok_iff hs (Nat.sub_le _ _) (Nat.zero_le _) u).mp hu
          cases h
          rw [List.drop_zero] at hv
          rw [hv, formatUUID, written_eq hfull]
  · intro h
    have hs := hyphenated_of_format h
    have hloop : hexLoop s s.length 0 [] = .ok uuid.1 := by
      rw [hexLoop_ok_iff hs (Nat.sub_le _ _) (Nat.zero_le _)]
      exact ⟨uuid.1, rfl, le_of_eq uuid.2, h⟩
    rw [parseHyphenatedUUID, if_neg (not_not.mpr hs.1), if_neg, hloop]
    · exact congrArg Except.ok (written_eq uuid.2)
    · rintro ⟨pos, hpos, hne⟩
      exact hne (by rw [List.getD_eq_getElem?_getD, hs.2 pos hpos, Option.getD_some])

/-- No parse ends in a panic. -/
lemma parseHyphenatedUUID_in_range (s : Bytes) : parseHyphenatedUUID s ≠ .error .outOfRange := by
  intro h
  rw [parseHyphenatedUUID] at h
  split at h
  · cases h
  · rename_i hlen
    split at h
    · cases h
    · rcases hexLoop_aligned (not_not.mp hlen) (Nat.sub_le _ _)
        (show Aligned 0 ([] : Bytes).length from List.mem_cons_self) with hbad | ⟨u, hu, _⟩
      · rw [hbad] at h
        cases h
      · rw [hu] at h
        cases h

def lowered (s : Bytes) : Bytes :=
  match strip s (ascii "PNI:") with
  | some rest => ascii "PNI:" ++ rest.map lowerDigit
  | none => s.map lowerDigit

lemma strip_eq_some {start rest : Bytes} : strip s start = some rest ↔ s = start ++ rest := by
  rw [strip]
  constructor
  · intro h
    split at h
    · rename_i hstart
      cases h
      conv_lhs => rw [← List.take_append_drop start.length s, hstart.2]
    · cases h
  · rintro rfl
    rw [if_pos ⟨by rw [List.length_append]; exact Nat.le_add_right _ _, List.take_left⟩, List.drop_left]

lemma map_lowerDigit_eq_start {a : Bytes} (h : a.map lowerDigit = ascii "PNI:") : a = ascii "PNI:" := by
  have hstart : ascii "PNI:" = [80, 78, 73, 58] := by decide
  rw [hstart] at h ⊢
  have hsame : ∀ c ∈ a, lowerDigit c = id c := by
    intro c hc
    exact (evaluated_bytes c).2.2.2 (h ▸ List.mem_map_of_mem hc)
  rw [← h, List.map_congr_left hsame, List.map_id]

lemma formatUUID_ne_start (uuid : UUID) (rest : Bytes) : formatUUID uuid ≠ ascii "PNI:" ++ rest := by
  intro h
  obtain ⟨v, hv⟩ := uuid
  cases v with
  | nil => cases hv
  | cons b v =>
    obtain ⟨hhi, _⟩ := digits_byte b
    have htable : ∀ k : Fin 16, lowerHex.getD k 0 ≠ 80 := by decide
    rw [formatUUID, formatFrom, if_neg (by decide)] at h
    exact htable ⟨_, UInt8.lt_iff_toNat_lt.mp hhi⟩ (List.cons.inj h).1

lemma ServiceID.eq_ofUUID {s : ServiceID} {kind : ServiceIDKind} :
    ServiceID.ofUUID kind uuid = s ↔ kind = s.kind ∧ uuid = s.rawUUID := by
  constructor
  · rintro rfl
    exact ⟨rfl, rfl⟩
  · rintro ⟨rfl, rfl⟩
    rfl

lemma map_parse_ok_iff {t : Bytes} {kind : ServiceIDKind} {s : ServiceID} :
    (parseHyphenatedUUID t).map (.ofUUID kind) = .ok s ↔
      kind = s.kind ∧ t.map lowerDigit = formatUUID s.rawUUID := by
  cases hparse : parseHyphenatedUUID t with
  | error e =>
    refine ⟨nofun, fun h => ?_⟩
    rw [parseHyphenatedUUID_ok_iff.mpr h.2] at hparse
    cases hparse
  | ok uuid =>
    have hformat := parseHyphenatedUUID_ok_iff.mp hparse
    constructor
    · intro h
      obtain ⟨hkind, huuid⟩ := ServiceID.eq_ofUUID.mp (Except.ok.inj h)
      exact ⟨hkind, huuid ▸ hformat⟩
    · rintro ⟨hkind, h⟩
      rw [parseHyphenatedUUID_ok_iff.mpr h] at hparse
      cases hparse
      exact congrArg Except.ok (ServiceID.eq_ofUUID.mpr ⟨hkind, rfl⟩)

lemma parseString_ok_iff {t : Bytes} {s : ServiceID} :
    parseServiceIDString t = .ok s ↔ lowered t = s.serviceIDString := by
  rw [parseServiceIDString, lowered, ServiceID.serviceIDString]
  cases hstrip : strip t (ascii "PNI:") with
  | some rest =>
    dsimp only
    rw [map_parse_ok_iff]
    cases hkind : s.kind with
    | aci =>
      rw [if_pos rfl]
      exact ⟨fun h => (nomatch h.1), fun h => absurd h.symm (formatUUID_ne_start _ _)⟩
    | pni =>
      rw [if_neg (by decide)]
      change _ ↔ _ = ascii "PNI:" ++ formatUUID s.rawUUID
      rw [List.append_cancel_left_eq]
      exact and_iff_right rfl
  | none =>
    dsimp only
    rw [map_parse_ok_iff]
    cases hkind : s.kind with
    | aci =>
      rw [if_pos rfl]
      exact and_iff_right rfl
    | pni =>
      rw [if_neg (by decide)]
      refine ⟨fun h => (nomatch h.1), fun h => ?_⟩
      obtain ⟨a, b, rfl, ha, _⟩ := List.map_eq_append_iff.mp
        (show t.map lowerDigit = ascii "PNI:" ++ formatUUID s.rawUUID from h)
      rw [map_lowerDigit_eq_start ha, strip_eq_some.mpr rfl] at hstrip
      cases hstrip

lemma map_lowerDigit_formatFrom (i : Nat) (v : Bytes) : (formatFrom i v).map lowerDigit = formatFrom i v := by
  have hdigit : ∀ k : Fin 16, lowerDigit (lowerHex.getD k 0) = lowerHex.getD k 0 := by decide
  induction v generalizing i with
  | nil => rfl
  | cons b v ih =>
    obtain ⟨hhi, hlo, _⟩ := digits_byte b
    have hfirst := hdigit ⟨_, UInt8.lt_iff_toNat_lt.mp hhi⟩
    have hsecond := hdigit ⟨_, UInt8.lt_iff_toNat_lt.mp hlo⟩
    dsimp only at hfirst hsecond
    rw [formatFrom]
    split
    · rw [List.map_cons, List.map_cons, List.map_cons, hfirst, hsecond, ih, lowerDigit_eq_hyphen.mpr rfl]
    · rw [List.map_cons, List.map_cons, hfirst, hsecond, ih]

lemma lowered_serviceIDString (s : ServiceID) : lowered s.serviceIDString = s.serviceIDString := by
  have hlower : (formatUUID s.rawUUID).map lowerDigit = formatUUID s.rawUUID := map_lowerDigit_formatFrom 0 _
  rw [ServiceID.serviceIDString, lowered]
  cases hkind : s.kind with
  | aci =>
    rw [if_pos rfl]
    have hnone : strip (formatUUID s.rawUUID) (ascii "PNI:") = none := by
      cases hstrip : strip (formatUUID s.rawUUID) (ascii "PNI:") with
      | none => rfl
      | some rest => exact absurd (strip_eq_some.mp hstrip) (formatUUID_ne_start _ _)
    rw [hnone]
    exact hlower
  | pni =>
    rw [if_neg (by decide)]
    change (match strip (ascii "PNI:" ++ formatUUID s.rawUUID) (ascii "PNI:") with
      | some rest => ascii "PNI:" ++ rest.map lowerDigit
      | none => (ascii "PNI:" ++ formatUUID s.rawUUID).map lowerDigit) = ascii "PNI:" ++ formatUUID s.rawUUID
    rw [strip_eq_some.mpr rfl]
    dsimp only
    rw [hlower]

/-- No parse of a service id ends in a panic. -/
lemma parseString_in_range (t : Bytes) : parseServiceIDString t ≠ .error .outOfRange := by
  have hrange : ∀ u kind, (parseHyphenatedUUID u).map (ServiceID.ofUUID kind) ≠ .error .outOfRange := by
    intro u kind h
    cases hparse : parseHyphenatedUUID u with
    | ok uuid =>
      rw [hparse] at h
      cases h
    | error e =>
      rw [hparse] at h
      cases h
      exact parseHyphenatedUUID_in_range u hparse
  rw [parseServiceIDString]
  split
  · exact hrange _ _
  · exact hrange _ _

lemma ServiceID.fixedWidth_injective {s t : ServiceID}
    (h : s.serviceIDFixedWidthBinary = t.serviceIDFixedWidthBinary) : s = t :=
  Option.some.inj (by rw [← parse_fixedWidth s, h, parse_fixedWidth t])

/-- Each service id is read back from its three forms. The binary parser accepts the binary forms only, and the
string parser the strings that are a string form up to the case of the digits, with no access out of range. -/
theorem serviceID_forms_canonical : (∀ s : ServiceID, parseServiceIDBinary s.serviceIDBinary = some s ∧
      parseServiceIDFixedWidthBinary s.serviceIDFixedWidthBinary = some s ∧
      parseServiceIDString s.serviceIDString = .ok s) ∧
    (∀ b s, parseServiceIDBinary b = some s ↔ b = s.serviceIDBinary) ∧
    (∀ t s, parseServiceIDString t = .ok s ↔ lowered t = s.serviceIDString) ∧
    (∀ t, parseServiceIDString t ≠ .error .outOfRange) ∧ (∀ s t : ServiceID, s.compare t = 0 ↔ s = t) ∧
    (∀ s t : ServiceID, t.compare s = -s.compare t) ∧
    (∀ s t u : ServiceID, s.compare t ≤ 0 → t.compare u ≤ 0 → s.compare u ≤ 0) ∧
    ∀ s t : ServiceID, s.compare t < 0 ↔ s.serviceIDFixedWidthBinary < t.serviceIDFixedWidthBinary := by
  refine ⟨?_, fun _ _ => parseBinary_eq_some, fun _ _ => parseString_ok_iff, parseString_in_range, ?_, ?_, ?_, ?_⟩
  · intro s
    exact ⟨parseBinary_eq_some.mpr rfl, parse_fixedWidth s, parseString_ok_iff.mpr (lowered_serviceIDString s)⟩
  · intro s t
    rw [ServiceID.compare, compareBytes_eq_zero]
    exact ⟨ServiceID.fixedWidth_injective, fun h => by rw [h]⟩
  · intro s t
    exact compareBytes_neg _ _
  · intro s t u hst htu
    exact compareBytes_trans hst htu
  · intro s t
    exact compareBytes_lt

/-- The ids of zero bytes, the ACI before the PNI. -/
theorem serviceID_forms_canonical_zeros :
    parseServiceIDString (ServiceID.mk .pni (zeros 16) (length_zeros 16)).serviceIDString =
        .ok ⟨.pni, zeros 16, length_zeros 16⟩ ∧
      (ServiceID.mk .aci (zeros 16) (length_zeros 16)).compare ⟨.pni, zeros 16, length_zeros 16⟩ ≤ 0 := by
  obtain ⟨hforms, _, _, _, hzero, _, htrans, _⟩ := serviceID_forms_canonical
  refine ⟨(hforms _).2.2, ?_⟩
  have hself := (hzero ⟨.aci, zeros 16, length_zeros 16⟩ _).mpr rfl
  exact htrans _ _ _ hself.le (by decide)

end LibSignal.Address
