import Mathlib.Tactic.Ring
import Mathlib.Tactic.NormNum
import Mathlib.Data.List.Basic

/-!
# The protobuf wire format

Varints, tags and field values as byte strings, after the package `protowire`.
-/

namespace LibSignal.Lib.ProtoWire

/-! ## Varints -/

def varintBytes : Nat → Nat → List UInt8
  | 0, _ => []
  | k + 1, v => if v < 128 then [v.toUInt8] else (v % 128 + 128).toUInt8 :: varintBytes k (v / 128)

def encodeVarint (v : Nat) : List UInt8 := varintBytes 10 v

/-- The bound on a final byte with `k` more bytes allowed: the tenth byte carries one bit. -/
def finalBound (k : Nat) : Nat := if k = 0 then 2 else 128

def varintLoop : Nat → List UInt8 → Option (Nat × Nat)
  | 0, _ => none
  | _ + 1, [] => none
  | k + 1, b :: bs =>
    if b.toNat < finalBound k then some (b.toNat, 1)
    else (varintLoop k bs).map fun (v, n) => (b.toNat - 128 + 128 * v, n + 1)

def consumeVarint (b : List UInt8) : Option (Nat × Nat) := varintLoop 10 b

section Loop
variable {k v n : Nat} {b : List UInt8}

lemma varintLoop_length (h : varintLoop k b = some (v, n)) : 1 ≤ n ∧ n ≤ k ∧ n ≤ b.length := by
  induction k generalizing b v n with
  | zero => cases h
  | succ k ih =>
    cases b with
    | nil => cases h
    | cons a b =>
      rw [varintLoop] at h
      split at h
      · cases h
        exact ⟨le_rfl, by omega, by rw [List.length_cons]; omega⟩
      · obtain ⟨⟨w, m⟩, hrest, heq⟩ := Option.map_eq_some_iff.mp h
        cases heq
        have hm := ih hrest
        rw [List.length_cons]
        omega

lemma varintLoop_congr {b' : List UInt8} (h : varintLoop k b = some (v, n)) (htake : b'.take n = b.take n) :
    varintLoop k b' = some (v, n) := by
  induction k generalizing b b' v n with
  | zero => cases h
  | succ k ih =>
    cases b with
    | nil => cases h
    | cons a b =>
      obtain ⟨hpos, _, _⟩ := varintLoop_length h
      obtain ⟨m, rfl⟩ : ∃ m, n = m + 1 := ⟨n - 1, by omega⟩
      cases b' with
      | nil => cases htake
      | cons a' b' =>
        rw [List.take_succ_cons, List.take_succ_cons] at htake
        obtain ⟨rfl, htail⟩ := List.cons.inj htake
        rw [varintLoop] at h ⊢
        split at h
        · rename_i hlast
          rw [if_pos hlast]
          exact h
        · rename_i hmore
          obtain ⟨⟨w, m'⟩, hrest, heq⟩ := Option.map_eq_some_iff.mp h
          cases heq
          rw [if_neg hmore, ih hrest htail]
          rfl

lemma varintLoop_encode (h : v < 2 * 128 ^ k) (rest : List UInt8) :
    varintLoop (k + 1) (varintBytes (k + 1) v ++ rest) = some (v, (varintBytes (k + 1) v).length) := by
  induction k generalizing v with
  | zero =>
    have hbyte : v.toUInt8.toNat = v := by
      change v % 256 = v
      omega
    rw [varintBytes, if_pos (by omega), List.singleton_append, varintLoop, hbyte, finalBound, if_pos rfl,
      if_pos (by omega)]
    rfl
  | succ k ih =>
    rw [varintBytes]
    split
    · rename_i hsmall
      have hbyte : v.toUInt8.toNat = v := by
        change v % 256 = v
        omega
      rw [List.singleton_append, varintLoop, hbyte, finalBound, if_neg (Nat.succ_ne_zero k), if_pos hsmall]
      rfl
    · rename_i hlarge
      have hbyte : (v % 128 + 128).toUInt8.toNat = v % 128 + 128 := by
        change (v % 128 + 128) % 256 = _
        omega
      have hdiv : v / 128 < 2 * 128 ^ k := Nat.div_lt_of_lt_mul (by rw [pow_succ] at h; omega)
      rw [List.cons_append, varintLoop, hbyte, finalBound, if_neg (Nat.succ_ne_zero k), if_neg (by omega),
        ih hdiv, Option.map_some]
      dsimp only
      rw [Nat.add_sub_cancel, Nat.mod_add_div, List.length_cons]

lemma length_varintBytes {m : Nat} (h : v < 128 ^ (m + 1)) (hm : m < k) : (varintBytes k v).length ≤ m + 1 := by
  induction k generalizing m v with
  | zero => exact absurd hm (Nat.not_lt_zero m)
  | succ k ih =>
    rw [varintBytes]
    split
    · rw [List.length_singleton]
      omega
    · rename_i hlarge
      cases m with
      | zero => exact absurd h (by omega)
      | succ m =>
        rw [List.length_cons]
        have hdiv : v / 128 < 128 ^ (m + 1) := Nat.div_lt_of_lt_mul (by rwa [pow_succ'] at h)
        exact Nat.succ_le_succ (ih hdiv (by omega))

end Loop

variable {v : Nat}

lemma consumeVarint_length {b : List UInt8} {n : Nat} (h : consumeVarint b = some (v, n)) :
    1 ≤ n ∧ n ≤ b.length := ⟨(varintLoop_length h).1, (varintLoop_length h).2.2⟩

lemma consumeVarint_congr {b b' : List UInt8} {n : Nat} (h : consumeVarint b = some (v, n))
    (htake : b'.take n = b.take n) : consumeVarint b' = some (v, n) := varintLoop_congr h htake

lemma consumeVarint_encode (h : v < 2 ^ 64) (rest : List UInt8) :
    consumeVarint (encodeVarint v ++ rest) = some (v, (encodeVarint v).length) :=
  varintLoop_encode (h.trans_eq (by norm_num)) rest

lemma length_encodeVarint {m : Nat} (h : v < 128 ^ (m + 1)) (hm : m < 10) :
    (encodeVarint v).length ≤ m + 1 := length_varintBytes h hm

inductive WireType where
  | varint
  | fixed64
  | bytes
  | startGroup
  | endGroup
  | fixed32
  | reserved (n : Nat)
deriving DecidableEq, Repr

def WireType.ofNat : Nat → WireType
  | 0 => .varint
  | 1 => .fixed64
  | 2 => .bytes
  | 3 => .startGroup
  | 4 => .endGroup
  | 5 => .fixed32
  | n => .reserved n

def WireType.toNat : WireType → Nat
  | .varint => 0
  | .fixed64 => 1
  | .bytes => 2
  | .startGroup => 3
  | .endGroup => 4
  | .fixed32 => 5
  | .reserved n => n

def decodeTag (x : Nat) : Int × WireType :=
  if x / 8 > 2 ^ 31 - 1 then (-1, .varint) else ((x / 8 : Nat), .ofNat (x % 8))

def isValid (num : Int) : Bool := 1 ≤ num && num ≤ 2 ^ 29 - 1

def consumeTag (b : List UInt8) : Option (Int × WireType × Nat) :=
  match consumeVarint b with
  | none => none
  | some (v, n) => if (decodeTag v).1 < 1 then none else some ((decodeTag v).1, (decodeTag v).2, n)

def encodeTag (num : Nat) (typ : WireType) : List UInt8 := encodeVarint (num * 8 + typ.toNat)

def consumeBytes (b : List UInt8) : Option (List UInt8 × Nat) :=
  match consumeVarint b with
  | none => none
  | some (m, n) => if m > (b.drop n).length then none else some ((b.drop n).take m, n + m)

def encodeBytes (v : List UInt8) : List UInt8 := encodeVarint v.length ++ v

lemma consumeBytes_encode {v : List UInt8} (h : v.length < 2 ^ 64) (rest : List UInt8) :
    consumeBytes (encodeBytes v ++ rest) = some (v, (encodeBytes v).length) := by
  have hdrop : (encodeBytes v ++ rest).drop (encodeVarint v.length).length = v ++ rest := by
    rw [encodeBytes, List.append_assoc, List.drop_left]
  rw [consumeBytes, encodeBytes, List.append_assoc, consumeVarint_encode h, ← List.append_assoc]
  dsimp only
  rw [← encodeBytes, hdrop, if_neg (by rw [List.length_append]; omega), List.take_left, encodeBytes,
    List.length_append]

def defaultRecursionLimit : Nat := 10000

mutual

/-- Skip a field value (`consumeFieldValueD`); `depth` is one more than the depth of the source, and every
call consumes from `fuel`. -/
def consumeValue : Nat → Nat → Int → WireType → List UInt8 → Option Nat
  | 0, _, _, _, _ => none
  | fuel + 1, depth, num, typ, b =>
    match typ with
    | .varint => (consumeVarint b).map Prod.snd
    | .fixed32 => if b.length < 4 then none else some 4
    | .fixed64 => if b.length < 8 then none else some 8
    | .bytes => (consumeBytes b).map Prod.snd
    | .startGroup => if depth = 0 then none else consumeGroup fuel depth num b
    | .endGroup => none
    | .reserved _ => none

def consumeGroup : Nat → Nat → Int → List UInt8 → Option Nat
  | 0, _, _, _ => none
  | fuel + 1, depth, num, b =>
    match consumeTag b with
    | none => none
    | some (num2, typ2, n) =>
      if typ2 = .endGroup then if num ≠ num2 then none else some n
      else
        match consumeValue fuel (depth - 1) num2 typ2 (b.drop n) with
        | none => none
        | some m => (consumeGroup fuel depth num (b.drop (n + m))).map (· + (n + m))

end

def consumeFieldValue (num : Int) (typ : WireType) (b : List UInt8) : Option Nat :=
  consumeValue (2 * b.length + 2) (defaultRecursionLimit + 1) num typ b

end LibSignal.Lib.ProtoWire
