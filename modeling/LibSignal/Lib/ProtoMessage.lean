import LibSignal.Lib.ProtoWire

/-!
# Reading protobuf messages

The loop that reads a message field by field (`proto.Unmarshal` of a generated message), over a decoder
`field` for the fields that the message has; other fields are skipped.
-/

namespace LibSignal.Lib.ProtoWire
variable {M : Type*}

/-- What the decoder of a message does with a field: it does not know it, it refuses its value, or it reads
its value of `n` bytes into the message. -/
inductive FieldRead (M : Type*) where
  | unknown
  | invalid
  | read (m : M) (n : Nat)

def readVarint (typ : WireType) (b : List UInt8) (set : Nat → M) : FieldRead M :=
  if typ = .varint then
    match consumeVarint b with
    | none => .invalid
    | some (v, n) => .read (set v) n
  else .unknown

def readBytes (typ : WireType) (b : List UInt8) (set : List UInt8 → Option M) : FieldRead M :=
  if typ = .bytes then
    match consumeBytes b with
    | none => .invalid
    | some (v, n) =>
      match set v with
      | none => .invalid
      | some m => .read m n
  else .unknown

/-- The loop of `proto.Unmarshal`; every round consumes a byte. -/
def unmarshalLoop (field : Nat → WireType → List UInt8 → M → FieldRead M) : Nat → List UInt8 → M → Option M
  | 0, b, m => if b.length > 0 then none else some m
  | fuel + 1, b, m =>
    if b.length > 0 then
      match consumeVarint b with
      | none => none
      | some (tag, n) =>
        if tag / 8 < 1 ∨ tag / 8 > 2 ^ 29 - 1 then none
        else if WireType.ofNat (tag % 8) = .endGroup then none
        else
          match field (tag / 8) (.ofNat (tag % 8)) (b.drop n) m with
          | .invalid => none
          | .unknown =>
            match consumeFieldValue (tag / 8 : Nat) (.ofNat (tag % 8)) (b.drop n) with
            | none => none
            | some k => unmarshalLoop field fuel (b.drop (n + k)) m
          | .read m k => unmarshalLoop field fuel (b.drop (n + k)) m
    else some m

def unmarshalInto (field : Nat → WireType → List UInt8 → M → FieldRead M) (b : List UInt8) (m : M) : Option M :=
  unmarshalLoop field b.length b m

def encodeVarintField (num v : Nat) : List UInt8 := encodeTag num .varint ++ encodeVarint v

def encodeBytesField (num : Nat) (v : List UInt8) : List UInt8 := encodeTag num .bytes ++ encodeBytes v

variable (field : Nat → WireType → List UInt8 → M → FieldRead M)

lemma unmarshalLoop_nil (fuel : Nat) (m : M) : unmarshalLoop field fuel [] m = some m := by
  cases fuel <;> rfl

variable {fuel num : Nat} {rest : List UInt8}

lemma unmarshalLoop_field {typ : WireType} (hpos : 1 ≤ num) (hnum : num < 2 ^ 29) (htyp : typ.toNat < 8)
    (hback : .ofNat typ.toNat = typ) (hend : typ ≠ .endGroup) {value : List UInt8} (m : M) {m' : M}
    (hread : field num typ (value ++ rest) m = .read m' value.length)
    (hfuel : (encodeTag num typ ++ value ++ rest).length ≤ fuel) : ∃ fuel', rest.length ≤ fuel' ∧
      unmarshalLoop field fuel (encodeTag num typ ++ value ++ rest) m = unmarshalLoop field fuel' rest m' := by
  have htag := consumeVarint_encode (v := num * 8 + typ.toNat) (by omega) (value ++ rest)
  have hdiv : (num * 8 + typ.toNat) / 8 = num := by omega
  have hmod : (num * 8 + typ.toNat) % 8 = typ.toNat := by omega
  obtain ⟨hlen, _⟩ := consumeVarint_length htag
  rw [← encodeTag] at htag hlen
  rw [List.length_append, List.length_append] at hfuel
  cases fuel with
  | zero => omega
  | succ fuel =>
    refine ⟨fuel, by omega, ?_⟩
    rw [List.append_assoc, unmarshalLoop, if_pos (by rw [List.length_append]; omega), htag]
    dsimp only
    rw [hdiv, hmod, hback, if_neg (by omega), if_neg hend, List.drop_left, hread]
    dsimp only
    rw [← List.drop_drop, List.drop_left, List.drop_left]

lemma unmarshalLoop_varint {v : Nat} (hpos : 1 ≤ num) (hnum : num < 2 ^ 29) (hv : v < 2 ^ 64) (m : M)
    {set : Nat → M} (hfield : ∀ typ b, field num typ b m = readVarint typ b set)
    (hfuel : (encodeVarintField num v ++ rest).length ≤ fuel) : ∃ fuel', rest.length ≤ fuel' ∧
      unmarshalLoop field fuel (encodeVarintField num v ++ rest) m = unmarshalLoop field fuel' rest (set v) := by
  refine unmarshalLoop_field field hpos hnum (by decide) rfl (by decide) m ?_ hfuel
  rw [hfield, readVarint, if_pos rfl, consumeVarint_encode hv]

lemma unmarshalLoop_bytes {v : List UInt8} (hpos : 1 ≤ num) (hnum : num < 2 ^ 29) (hv : v.length < 2 ^ 64)
    (m : M) {m' : M} {set : List UInt8 → Option M} (hfield : ∀ typ b, field num typ b m = readBytes typ b set)
    (hset : set v = some m') (hfuel : (encodeBytesField num v ++ rest).length ≤ fuel) :
    ∃ fuel', rest.length ≤ fuel' ∧
      unmarshalLoop field fuel (encodeBytesField num v ++ rest) m = unmarshalLoop field fuel' rest m' := by
  refine unmarshalLoop_field field hpos hnum (by decide) rfl (by decide) m ?_ hfuel
  rw [hfield, readBytes, if_pos rfl, consumeBytes_encode hv]
  dsimp only
  rw [hset]

end LibSignal.Lib.ProtoWire
