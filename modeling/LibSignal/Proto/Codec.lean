import LibSignal.Crypto.Primitives

/-!
# The protobuf runtime

Marshalling of a protobuf message type, as far as the code relies on it: reading back what was written gives
the message (`Wire`).
-/

namespace LibSignal.Proto
open Chunked (Bytes)
open Crypto

class Wire (α : Type) where
  marshal : α → Bytes
  unmarshal : Bytes → Option α
  unmarshal_marshal : ∀ m, unmarshal (marshal m) = some m

export Wire (marshal unmarshal unmarshal_marshal)

attribute [simp] unmarshal_marshal

instance countableUInt8 : Countable UInt8 := Function.Injective.countable fun _ _ => UInt8.toNat_inj.mp
instance countableUInt32 : Countable UInt32 := Function.Injective.countable fun _ _ => UInt32.toNat_inj.mp
instance countableUInt64 : Countable UInt64 := Function.Injective.countable fun _ _ => UInt64.toNat_inj.mp
instance countableInt32 : Countable Int32 := Function.Injective.countable fun _ _ => Int32.toInt_inj.mp
instance countableChar : Countable Char := Function.Injective.countable fun _ _ => Char.toNat_inj.mp
instance countableString : Countable String := Function.Injective.countable fun _ _ => String.toList_inj.mp

@[reducible] noncomputable def unaryWire (α : Type) [Countable α] : Wire α :=
  let _ := Encodable.ofCountable α
  { marshal := fun m => zeros (Encodable.encode m)
    unmarshal := fun b => Encodable.decode b.length
    unmarshal_marshal := fun m => by rw [length_zeros, Encodable.encodek] }

@[reducible] noncomputable def paddedWire {α : Type} [Countable α] (size : α → Nat) : Wire α :=
  let _ := Encodable.ofCountable α
  { marshal := fun m => zeros (Nat.pair (size m) (Encodable.encode m))
    unmarshal := fun b => Encodable.decode b.length.unpair.2
    unmarshal_marshal := fun m => by rw [length_zeros, Nat.unpair_pair, Encodable.encodek] }

lemma size_le_paddedWire {α : Type} [Countable α] (size : α → Nat) (m : α) :
    size m ≤ ((paddedWire size).marshal m).length :=
  (Nat.left_le_pair _ _).trans_eq (length_zeros _).symm

end LibSignal.Proto
